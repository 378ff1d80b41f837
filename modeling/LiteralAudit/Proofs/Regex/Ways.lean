import LiteralAudit.Proofs.Regex.Leads

/-!
# The ways through an expression

A table of ways, one list for each position, lets a way be followed from position to position until one
reaches the end (`Goes`). When the table holds the ways that an expression gives (`Core.follow`), going
along its first ways is what the expression matches: whatever such a way does, the expression leads to
where the ways behind it go on (`Core.leads_of_skip`, `Core.leads_of_goes`), and wherever the expression
leads, some first way can be taken (`Core.enters_of_leads`). For the second only the place counts at which
the way ends, since pruning drops ways that leave other marks (`Reaches`).
-/

namespace LiteralAudit

instance : LawfulBEq Place where
  rfl := fun {p} => by cases p <;> rfl
  eq_of_beq := fun {p q} h => by cases p <;> cases q <;> first | rfl | cases h

namespace Regex

/-! ## Going along ways -/

/-- What can be done from a position, by its number. -/
abbrev Table := Nat → List Way

/-- The table holds these rows. -/
def Table.Holds (T : Table) (rows : List (Nat × List Way)) : Prop := ∀ q ∈ rows, T q.1 = q.2

theorem Table.holds_append {T : Table} {rows more : List (Nat × List Way)} :
    T.Holds (rows ++ more) ↔ T.Holds rows ∧ T.Holds more := List.forall_mem_append

/-- A way can be taken, and from the position it leads to another one, until one reaches the end. -/
inductive Goes (T : Table) : Way → Trail → Trail → Prop
  | skip {w : Way} {s : Trail} (hmeets : s.spot.Meets w.conditions) (htarget : w.target = .skip) :
    Goes T w s (s.pass w.borders)
  | read {w v : Way} {s t : Trail} {p : Nat} {set : CharSet} {r : Rune} {rest : List Rune}
    (hmeets : s.spot.Meets w.conditions) (htarget : w.target = .read p set)
    (hrest : s.spot.rest = r :: rest) (hmem : set.mem r.char.toNat = true) (hv : v ∈ T p)
    (h : Goes T v ((s.pass w.borders).past r rest) t) : Goes T w s t

/-- What a way does once its conditions are met and its borders passed. -/
def Arrives (T : Table) (target : Target) (s t : Trail) : Prop :=
  match target with
  | .skip => t = s
  | .read p set => ∃ r rest, s.spot.rest = r :: rest ∧ set.mem r.char.toNat = true ∧
      ∃ v ∈ T p, Goes T v (s.past r rest) t

theorem goes_iff {T : Table} {w : Way} {s t : Trail} :
    Goes T w s t ↔ s.spot.Meets w.conditions ∧ Arrives T w.target (s.pass w.borders) t := by
  constructor
  · rintro (⟨hmeets, htarget⟩ | ⟨hmeets, htarget, hrest, hmem, hv, h⟩)
    · rw [htarget]
      exact ⟨hmeets, rfl⟩
    · rw [htarget]
      exact ⟨hmeets, _, _, hrest, hmem, _, hv, h⟩
  · rintro ⟨hmeets, h⟩
    cases htarget : w.target with
    | skip =>
      rw [htarget] at h
      obtain rfl : t = s.pass w.borders := h
      exact .skip hmeets htarget
    | read p set =>
      rw [htarget] at h
      obtain ⟨r, rest, hrest, hmem, v, hv, h⟩ := h
      exact .read hmeets htarget hrest hmem hv h

/-- A border in front of a way is passed before the way is taken. -/
theorem goes_border {T : Table} {w : Way} {b : Nat} {s t : Trail} :
    Goes T { w with borders := b :: w.borders } s t ↔ Goes T w (s.pass [b]) t := by
  rw [goes_iff, goes_iff, Trail.pass_pass, List.singleton_append]
  rfl

theorem isSkip_iff {w : Way} : w.isSkip = true ↔ w.target = .skip := by
  unfold Way.isSkip
  split <;> simp_all

theorem meets_followedBy {x : Spot} {w v : Way} :
    x.Meets (w.followedBy v).conditions ↔ x.Meets w.conditions ∧ x.Meets v.conditions := by
  unfold Spot.Meets Way.followedBy
  constructor
  · intro h
    refine ⟨fun p hp => h p (List.mem_append_left _ hp), fun p hp => ?_⟩
    by_cases hw : p ∈ w.conditions
    · exact h p (List.mem_append_left _ hw)
    · exact h p (List.mem_append_right _ (List.mem_filter.2 ⟨hp, by simpa using hw⟩))
  · rintro ⟨hw, hv⟩ p hp
    obtain hp | hp := List.mem_append.1 hp
    · exact hw p hp
    · exact hv p (List.mem_filter.1 hp).1

theorem pass_followedBy (s : Trail) (w v : Way) :
    s.pass (w.followedBy v).borders = (s.pass w.borders).pass v.borders := by
  rw [Trail.pass_pass]
  refine Trail.pass_congr s fun b => ?_
  by_cases hb : b ∈ w.borders <;> simp [Way.followedBy, hb]

/-- One way after another one. -/
theorem goes_followedBy {T : Table} {w v : Way} {s t : Trail} :
    Goes T (w.followedBy v) s t ↔
      s.spot.Meets w.conditions ∧ Goes T v (s.pass w.borders) t := by
  rw [goes_iff, goes_iff, meets_followedBy, pass_followedBy, and_assoc]
  rfl

/-! ## Lists of ways -/

namespace Way

theorem covers_refl (w : Way) : w.covers w = true := by
  unfold covers Target.same
  cases w.target <;> simp

/-- The ways on which one arrives behind `ways` when `next` go on from there. -/
def Joint (ways next : List Way) (w : Way) : Prop :=
  (w ∈ ways ∧ w.isSkip = false) ∨ ∃ u ∈ ways, u.isSkip = true ∧ ∃ v ∈ next, w = u.followedBy v

/-- All of them, before any is pruned. -/
def joined (ways next : List Way) : List Way :=
  ways.flatMap fun w => if w.isSkip then next.map w.followedBy else [w]

theorem mem_joined {ways next : List Way} {w : Way} : w ∈ joined ways next ↔ Joint ways next w := by
  unfold joined
  rw [List.mem_flatMap]
  constructor
  · rintro ⟨u, hu, hw⟩
    split at hw
    · next hskip =>
      obtain ⟨v, hv, rfl⟩ := List.mem_map.1 hw
      exact .inr ⟨u, hu, hskip, v, hv, rfl⟩
    · next hskip =>
      obtain rfl := List.mem_singleton.1 hw
      exact .inl ⟨hu, by simpa using hskip⟩
  · rintro (⟨hw, hskip⟩ | ⟨u, hu, hskip, v, hv, rfl⟩)
    · exact ⟨w, hw, by simp [hskip]⟩
    · exact ⟨u, hu, by simpa [hskip] using ⟨v, hv, rfl⟩⟩

/-- Pruning keeps ways that cover all others. -/
theorem prune_spec (ways : List Way) :
    (∀ w ∈ prune ways, w ∈ ways) ∧ ∀ v ∈ ways, ∃ w ∈ prune ways, w.covers v = true := by
  have hfold : ∀ (ways kept : List Way),
      let all := ways.foldl (fun kept v => if kept.any (·.covers v) then kept else v :: kept) kept
      (∀ w ∈ all, w ∈ kept ∨ w ∈ ways) ∧ (∀ w ∈ kept, w ∈ all) ∧
        ∀ v ∈ ways, ∃ w ∈ all, w.covers v = true := by
    intro ways
    induction ways with
    | nil => simp
    | cons v ways ih =>
      intro kept
      rw [List.foldl_cons]
      split
      · next hany =>
        obtain ⟨hsub, hkept, hcovers⟩ := ih kept
        obtain ⟨w, hw, hv⟩ := List.any_eq_true.1 hany
        refine ⟨fun w hw => (hsub w hw).imp_right (List.mem_cons_of_mem _), hkept, ?_⟩
        rintro u (_ | hu)
        · exact ⟨w, hkept w hw, hv⟩
        · exact hcovers u ‹_›
      · obtain ⟨hsub, hkept, hcovers⟩ := ih (v :: kept)
        refine ⟨fun w hw => ?_, fun w hw => hkept w (List.mem_cons_of_mem _ hw), ?_⟩
        · obtain hw | hw := hsub w hw
          · obtain rfl | hw := List.mem_cons.1 hw
            · exact .inr (List.mem_cons_self ..)
            · exact .inl hw
          · exact .inr (List.mem_cons_of_mem _ hw)
        · rintro u (_ | hu)
          · exact ⟨v, hkept v (List.mem_cons_self ..), covers_refl v⟩
          · exact hcovers u ‹_›
  obtain ⟨hsub, -, hcovers⟩ := hfold ways []
  unfold prune
  simp only [List.mem_reverse]
  exact ⟨fun w hw => (hsub w hw).resolve_left (List.not_mem_nil), hcovers⟩

/-- Pruning what skips keeps ways that cover all others. -/
theorem pruneSkips_spec (ways : List Way) :
    (∀ w ∈ pruneSkips ways, w ∈ ways) ∧ ∀ v ∈ ways, ∃ w ∈ pruneSkips ways, w.covers v = true := by
  unfold pruneSkips
  dsimp only
  generalize hstep : (fun (acc : List Way × List Way) (v : Way) =>
    if (!v.isSkip) = true then (v :: acc.1, acc.2)
    else if (acc.2.any fun x => x.covers v) = true then (acc.1, acc.2)
    else (v :: acc.1, v :: acc.2)) = step
  have hfold : ∀ (ways kept skips : List Way), (∀ w ∈ skips, w ∈ kept) →
      (∀ w ∈ (ways.foldl step (kept, skips)).1, w ∈ kept ∨ w ∈ ways) ∧
      (∀ w ∈ kept, w ∈ (ways.foldl step (kept, skips)).1) ∧
      ∀ v ∈ ways, ∃ w ∈ (ways.foldl step (kept, skips)).1, w.covers v = true := by
    intro ways
    induction ways with
    | nil => simp
    | cons v ways ih =>
      intro kept skips hskips
      rw [List.foldl_cons]
      -- A way that stays covers itself.
      have hstays : ∀ skips', (∀ w ∈ skips', w ∈ v :: kept) →
          (∀ w ∈ (ways.foldl step (v :: kept, skips')).1, w ∈ kept ∨ w ∈ v :: ways) ∧
          (∀ w ∈ kept, w ∈ (ways.foldl step (v :: kept, skips')).1) ∧
          ∀ u ∈ v :: ways, ∃ w ∈ (ways.foldl step (v :: kept, skips')).1, w.covers u = true := by
        intro skips' hskips'
        obtain ⟨hsub, hkept, hcovers⟩ := ih (v :: kept) skips' hskips'
        refine ⟨fun w hw => ?_, fun w hw => hkept w (List.mem_cons_of_mem _ hw), fun u hu => ?_⟩
        · obtain hw | hw := hsub w hw
          · obtain rfl | hw := List.mem_cons.1 hw
            · exact .inr (List.mem_cons_self ..)
            · exact .inl hw
          · exact .inr (List.mem_cons_of_mem _ hw)
        · obtain rfl | hu := List.mem_cons.1 hu
          · exact ⟨u, hkept u (List.mem_cons_self ..), covers_refl u⟩
          · exact hcovers u hu
      subst hstep
      dsimp only
      split
      · exact hstays skips fun w hw => List.mem_cons_of_mem _ (hskips w hw)
      · split
        · next hany =>
          obtain ⟨hsub, hkept, hcovers⟩ := ih kept skips hskips
          obtain ⟨w, hw, hv⟩ := List.any_eq_true.1 hany
          refine ⟨fun w hw => (hsub w hw).imp_right (List.mem_cons_of_mem _), hkept, fun u hu => ?_⟩
          obtain rfl | hu := List.mem_cons.1 hu
          · exact ⟨w, hkept w (hskips w hw), hv⟩
          · exact hcovers u hu
        · refine hstays (v :: skips) fun w hw => ?_
          obtain rfl | hw := List.mem_cons.1 hw
          · exact List.mem_cons_self ..
          · exact List.mem_cons_of_mem _ (hskips w hw)
  obtain ⟨hsub, -, hcovers⟩ := hfold ways [] [] (by simp)
  simp only [List.mem_reverse]
  exact ⟨fun w hw => (hsub w hw).resolve_left List.not_mem_nil, hcovers⟩

/-- What goes on behind `ways` is a joint, and all joints are covered. -/
theorem andThen_spec (ways next : List Way) :
    (∀ w ∈ andThen ways next, Joint ways next w) ∧
      ∀ v, Joint ways next v → ∃ w ∈ andThen ways next, w.covers v = true := by
  unfold andThen
  dsimp only
  split
  · next hnone =>
    rw [List.filter_eq_nil_iff] at hnone
    refine ⟨fun w hw => .inl ⟨hw, by simpa using hnone w hw⟩, ?_⟩
    rintro v (⟨hv, -⟩ | ⟨u, hu, hskip, -⟩)
    · exact ⟨v, hv, covers_refl v⟩
    · exact absurd hskip (hnone u hu)
  · exact ⟨fun w hw => mem_joined.1 hw, fun v hv => ⟨v, mem_joined.2 hv, covers_refl v⟩⟩
  · obtain ⟨hsub, hcovers⟩ := prune_spec (joined ways next)
    exact ⟨fun w hw => mem_joined.1 (hsub w hw), fun v hv => hcovers v (mem_joined.2 hv)⟩

theorem Joint.isSkip {ways next : List Way} {w : Way} (h : Joint ways next w) (hskip : w.isSkip = true) :
    ∃ u ∈ ways, u.isSkip = true ∧ ∃ v ∈ next, v.isSkip = true ∧ w = u.followedBy v := by
  obtain ⟨-, hread⟩ | ⟨u, hu, huskip, v, hv, rfl⟩ := h
  · rw [hread] at hskip
    cases hskip
  · exact ⟨u, hu, huskip, v, hv, hskip, rfl⟩

end Way

/-! ## What a first way matches -/

namespace Core

theorem mem_first_opt {greedy : Bool} {body : Core} {w : Way} (h : w ∈ (Core.opt greedy body).first) :
    w ∈ body.first ∨ w = {} := by
  have hmem := (Way.pruneSkips_spec _).1 w h
  cases greedy
  · exact (List.mem_cons.1 hmem).symm
  · exact (List.mem_append.1 hmem).imp_right List.mem_singleton.1

/-- The ways behind a turn of a loop: one more turn that reads something, or on. -/
theorem mem_next_loop {greedy : Bool} {body : Core} {next : List Way} {v : Way} :
    v ∈ (if greedy then (body.first.filter fun w => !w.isSkip) ++ next
      else next ++ body.first.filter fun w => !w.isSkip) ↔
      (v ∈ body.first ∧ v.isSkip = false) ∨ v ∈ next := by
  cases greedy <;> simp [or_comm]

/-- A first way that reads nothing passes through the expression. -/
theorem leads_of_skip {c : Core} {u : Way} (hu : u ∈ c.first) (hskip : u.isSkip = true) {s : Trail}
    (hmeets : s.spot.Meets u.conditions) : c.Leads s (s.pass u.borders) := by
  induction c generalizing u s with
  | empty =>
    obtain rfl := List.mem_singleton.1 hu
    exact Trail.pass_nil s
  | read pos set =>
    obtain rfl := List.mem_singleton.1 hu
    cases hskip
  | place p =>
    obtain rfl := List.mem_singleton.1 hu
    exact ⟨hmeets p (List.mem_singleton_self p), Trail.pass_nil s⟩
  | group n body ih =>
    obtain ⟨w, hw, rfl⟩ := List.mem_map.1 hu
    have hwskip : w.isSkip = true := hskip
    refine ⟨(s.pass [2 * n]).pass w.borders, ih hw hwskip hmeets, ?_⟩
    simp [hwskip, Trail.pass_pass]
  | seq a b iha ihb =>
    obtain ⟨w, hw, hwskip, v, hv, hvskip, rfl⟩ := ((Way.andThen_spec a.first b.first).1 u hu).isSkip hskip
    obtain ⟨hmeetsw, hmeetsv⟩ := meets_followedBy.1 hmeets
    refine ⟨s.pass w.borders, iha hw hwskip hmeetsw, ?_⟩
    rw [pass_followedBy]
    exact ihb hv hvskip hmeetsv
  | alt a b iha ihb =>
    obtain hu | hu := List.mem_append.1 ((Way.pruneSkips_spec (a.first ++ b.first)).1 u hu)
    · exact .inl (iha hu hskip hmeets)
    · exact .inr (ihb hu hskip hmeets)
  | opt greedy body ih =>
    obtain hu | rfl := mem_first_opt hu
    · exact .inr (ih hu hskip hmeets)
    · exact .inl (Trail.pass_nil s)
  | loop greedy body ih => exact ⟨0, turns_one.2 (ih hu hskip hmeets)⟩

/-- A first way that reads leads through the expression, to where the ways behind it go on. -/
theorem leads_of_goes {T : Table} {c : Core} {next : List Way} (hT : T.Holds (c.follow next)) {w : Way}
    (hw : w ∈ c.first) (hread : w.isSkip = false) {s u : Trail} (h : Goes T w s u) :
    ∃ t, c.Leads s t ∧ t.spot.rest.length < s.spot.rest.length ∧ ∃ v ∈ next, Goes T v t u := by
  induction c generalizing next w s with
  | empty =>
    obtain rfl := List.mem_singleton.1 hw
    cases hread
  | read pos set =>
    obtain rfl := List.mem_singleton.1 hw
    obtain ⟨-, r, rest, hrest, hmem, v, hv, h⟩ := goes_iff.1 h
    rw [Trail.pass_nil] at hrest h
    have hrow : T pos = next := hT (pos, next) (List.mem_singleton_self _)
    refine ⟨s.past r rest, ⟨r, rest, hrest, hmem, rfl⟩, ?_, v, hrow ▸ hv, h⟩
    simp [Spot.past, hrest]
  | place p =>
    obtain rfl := List.mem_singleton.1 hw
    cases hread
  | group n body ih =>
    obtain ⟨x, hx, rfl⟩ := List.mem_map.1 hw
    have hxread : x.isSkip = false := hread
    rw [hxread] at h
    obtain ⟨t, hlead, hlt, y, hy, hgo⟩ := ih hT hx hxread (goes_border.1 h)
    obtain ⟨v, hv, rfl⟩ := List.mem_map.1 hy
    exact ⟨t.pass [2 * n + 1], ⟨t, hlead, rfl⟩, hlt, v, hv, goes_border.1 hgo⟩
  | seq a b iha ihb =>
    obtain ⟨hTa, hTb⟩ := Table.holds_append.1 hT
    obtain ⟨hwa, -⟩ | ⟨x, hx, hxskip, v, hv, rfl⟩ := (Way.andThen_spec a.first b.first).1 w hw
    · -- `a` reads, and behind it `b` may read or not.
      obtain ⟨t, hlead, hlt, y, hy, hgo⟩ := iha hTa hwa hread h
      obtain ⟨hyb, hyread⟩ | ⟨x, hx, hxskip, v, hv, rfl⟩ := (Way.andThen_spec b.first next).1 y hy
      · obtain ⟨t', hlead', hlt', v, hv, hgo⟩ := ihb hTb hyb hyread hgo
        exact ⟨t', ⟨t, hlead, hlead'⟩, hlt'.trans hlt, v, hv, hgo⟩
      · obtain ⟨hmeets, hgo⟩ := goes_followedBy.1 hgo
        exact ⟨t.pass x.borders, ⟨t, hlead, leads_of_skip hx hxskip hmeets⟩, hlt, v, hv, hgo⟩
    · obtain ⟨hmeets, hgo⟩ := goes_followedBy.1 h
      obtain ⟨t, hlead, hlt, y, hy, hgo⟩ := ihb hTb hv hread hgo
      exact ⟨t, ⟨_, leads_of_skip hx hxskip hmeets, hlead⟩, hlt, y, hy, hgo⟩
  | alt a b iha ihb =>
    obtain ⟨hTa, hTb⟩ := Table.holds_append.1 hT
    obtain hw | hw := List.mem_append.1 ((Way.pruneSkips_spec (a.first ++ b.first)).1 w hw)
    · obtain ⟨t, hlead, hrest⟩ := iha hTa hw hread h
      exact ⟨t, .inl hlead, hrest⟩
    · obtain ⟨t, hlead, hrest⟩ := ihb hTb hw hread h
      exact ⟨t, .inr hlead, hrest⟩
  | opt greedy body ih =>
    obtain hw | rfl := mem_first_opt hw
    · obtain ⟨t, hlead, hrest⟩ := ih hT hw hread h
      exact ⟨t, .inr hlead, hrest⟩
    · cases hread
  | loop greedy body ih =>
    -- Each turn leaves less to read.
    induction hlen : s.spot.rest.length using Nat.strong_induction_on generalizing s w with
    | _ len ihlen =>
      obtain ⟨t, hlead, hlt, v, hv, hgo⟩ := ih hT hw hread h
      obtain ⟨hv, hvread⟩ | hv := mem_next_loop.1 hv
      · obtain ⟨t', ⟨n, hturns⟩, hlt', hrest⟩ := ihlen _ (hlen ▸ hlt) hv hvread hgo rfl
        exact ⟨t', ⟨n + 1, t, hlead, hturns⟩, hlt'.trans hlt |>.trans_eq hlen, hrest⟩
      · exact ⟨t, ⟨0, turns_one.2 hlead⟩, hlen ▸ hlt, v, hv, hgo⟩

end Core

/-! ## What can be taken wherever the expression leads -/

/-- A way can be taken, and from the position it leads to another one, until one reaches the end. The set
that a position reads is given by `sets`, and marks do not count. -/
inductive Reaches (sets : Nat → CharSet) (T : Table) : Way → Spot → Prop
  | skip {w : Way} {x : Spot} (hmeets : x.Meets w.conditions) (htarget : w.target = .skip) :
    Reaches sets T w x
  | read {w v : Way} {x : Spot} {p : Nat} {set : CharSet} {r : Rune} {rest : List Rune}
    (hmeets : x.Meets w.conditions) (htarget : w.target = .read p set) (hrest : x.rest = r :: rest)
    (hmem : (sets p).mem r.char.toNat = true) (hv : v ∈ T p) (h : Reaches sets T v (x.past r rest)) :
    Reaches sets T w x

/-- One of several ways can be taken to the end. -/
def Enters (sets : Nat → CharSet) (T : Table) (ways : List Way) (x : Spot) : Prop :=
  ∃ w ∈ ways, Reaches sets T w x

/-- Some way passes through without reading. -/
def PassedBy (ways : List Way) (x : Spot) : Prop :=
  ∃ u ∈ ways, u.isSkip = true ∧ x.Meets u.conditions

/-- One of several ways can be taken to the end, and reads. -/
def Starts (sets : Nat → CharSet) (T : Table) (ways : List Way) (x : Spot) : Prop :=
  ∃ w ∈ ways, w.isSkip = false ∧ Reaches sets T w x

section Complete

variable {sets : Nat → CharSet} {T : Table} {x : Spot} {w v : Way} {ways next : List Way}

theorem meets_of_covers (h : w.covers v = true) (hmeets : x.Meets v.conditions) :
    x.Meets w.conditions := by
  unfold Way.covers at h
  obtain ⟨-, hsub⟩ := Bool.and_eq_true_iff.1 h
  rw [List.all_eq_true] at hsub
  exact fun p hp => hmeets p (by simpa using hsub p hp)

theorem isSkip_of_covers (h : w.covers v = true) : w.isSkip = v.isSkip := by
  unfold Way.covers at h
  obtain ⟨hsame, -⟩ := Bool.and_eq_true_iff.1 h
  unfold Target.same at hsame
  unfold Way.isSkip
  split at hsame <;> simp_all

theorem Reaches.of_same (hconditions : v.conditions = w.conditions) (htarget : v.target = w.target)
    (h : Reaches sets T w x) : Reaches sets T v x := by
  cases h with
  | skip hmeets hskip => exact .skip (hconditions ▸ hmeets) (htarget.trans hskip)
  | read hmeets hread hrest hmem hv h =>
    exact .read (hconditions ▸ hmeets) (htarget.trans hread) hrest hmem hv h

theorem Reaches.of_covers (h : w.covers v = true) (hreach : Reaches sets T v x) :
    Reaches sets T w x := by
  have htarget : w.target.same v.target = true := (Bool.and_eq_true_iff.1 h).1
  unfold Target.same at htarget
  cases hreach with
  | skip hmeets hskip =>
    refine .skip (meets_of_covers h hmeets) ?_
    rw [hskip] at htarget
    split at htarget <;> simp_all
  | read hmeets hread hrest hmem hv hreach =>
    rw [hread] at htarget
    split at htarget
    · next hw hv' =>
      obtain ⟨rfl, -⟩ := Target.read.inj hv'
      obtain rfl := by simpa using htarget
      exact .read (meets_of_covers h hmeets) hw hrest hmem hv hreach
    · next hv' => cases hv'
    · cases htarget

theorem reaches_followedBy (hmeets : x.Meets w.conditions) (h : Reaches sets T v x) :
    Reaches sets T (w.followedBy v) x := by
  cases h with
  | skip hmeets' htarget => exact .skip (meets_followedBy.2 ⟨hmeets, hmeets'⟩) htarget
  | read hmeets' htarget hrest hmem hv h =>
    exact .read (meets_followedBy.2 ⟨hmeets, hmeets'⟩) htarget hrest hmem hv h

/-- What covers all ways of a list can be taken where one of the list can. -/
theorem Starts.of_covers {kept : List Way} (hcovers : ∀ v ∈ ways, ∃ w ∈ kept, w.covers v = true)
    (h : Starts sets T ways x) : Starts sets T kept x := by
  obtain ⟨v, hv, hread, hreach⟩ := h
  obtain ⟨w, hw, hcover⟩ := hcovers v hv
  exact ⟨w, hw, (isSkip_of_covers hcover).trans hread, hreach.of_covers hcover⟩

theorem PassedBy.of_covers {kept : List Way} (hcovers : ∀ v ∈ ways, ∃ w ∈ kept, w.covers v = true)
    (h : PassedBy ways x) : PassedBy kept x := by
  obtain ⟨v, hv, hskip, hmeets⟩ := h
  obtain ⟨w, hw, hcover⟩ := hcovers v hv
  exact ⟨w, hw, (isSkip_of_covers hcover).trans hskip, meets_of_covers hcover hmeets⟩

/-- Behind ways that pass through, those that go on can be taken. -/
theorem Starts.andThen_right (h : PassedBy ways x) (hnext : Starts sets T next x) :
    Starts sets T (Way.andThen ways next) x := by
  obtain ⟨u, hu, hskip, hmeets⟩ := h
  obtain ⟨v, hv, hread, hreach⟩ := hnext
  obtain ⟨w, hw, hcover⟩ :=
    (Way.andThen_spec ways next).2 _ (.inr ⟨u, hu, hskip, v, hv, rfl⟩)
  refine ⟨w, hw, (isSkip_of_covers hcover).trans ?_, (reaches_followedBy hmeets hreach).of_covers hcover⟩
  exact hread

theorem Enters.andThen_right (h : PassedBy ways x) (hnext : Enters sets T next x) :
    Enters sets T (Way.andThen ways next) x := by
  obtain ⟨u, hu, hskip, hmeets⟩ := h
  obtain ⟨v, hv, hreach⟩ := hnext
  obtain ⟨w, hw, hcover⟩ :=
    (Way.andThen_spec ways next).2 _ (.inr ⟨u, hu, hskip, v, hv, rfl⟩)
  exact ⟨w, hw, (reaches_followedBy hmeets hreach).of_covers hcover⟩

theorem Starts.andThen_left (h : Starts sets T ways x) : Starts sets T (Way.andThen ways next) x := by
  obtain ⟨v, hv, hread, hreach⟩ := h
  obtain ⟨w, hw, hcover⟩ := (Way.andThen_spec ways next).2 v (.inl ⟨hv, hread⟩)
  exact ⟨w, hw, (isSkip_of_covers hcover).trans hread, hreach.of_covers hcover⟩

theorem PassedBy.andThen (h : PassedBy ways x) (hnext : PassedBy next x) :
    PassedBy (Way.andThen ways next) x := by
  obtain ⟨u, hu, hskip, hmeets⟩ := h
  obtain ⟨v, hv, hvskip, hvmeets⟩ := hnext
  obtain ⟨w, hw, hcover⟩ :=
    (Way.andThen_spec ways next).2 _ (.inr ⟨u, hu, hskip, v, hv, rfl⟩)
  refine ⟨w, hw, (isSkip_of_covers hcover).trans hvskip, ?_⟩
  exact meets_of_covers hcover (meets_followedBy.2 ⟨hmeets, hvmeets⟩)

theorem Starts.enters (h : Starts sets T ways x) : Enters sets T ways x := by
  obtain ⟨w, hw, -, hreach⟩ := h
  exact ⟨w, hw, hreach⟩

end Complete

namespace Core

/-- The places where an expression reads, with what they read. -/
def reads : Core → List (Nat × CharSet)
  | .empty | .place _ => []
  | .read pos set => [(pos, set)]
  | .group _ body | .opt _ body | .loop _ body => body.reads
  | .seq a b | .alt a b => a.reads ++ b.reads

/-- Each position reads the set that it is given. -/
def Labelled (sets : Nat → CharSet) (c : Core) : Prop := ∀ q ∈ c.reads, sets q.1 = q.2

/-- An expression leads on from a spot to another one without reading, on a first way; or else, where the
ways behind it can be taken, a first way that reads can be taken. -/
def Complete (sets : Nat → CharSet) (c : Core) (x y : Spot) : Prop :=
  (y = x ∧ PassedBy c.first x) ∨
    ∀ T next, Table.Holds T (c.follow next) → Enters sets T next y → Starts sets T c.first x

theorem complete_loop {sets : Nat → CharSet} {greedy : Bool} {body : Core}
    (ih : ∀ {s t}, body.Leads s t → body.Complete sets s.spot t.spot) {n : Nat} {s u : Trail}
    (h : Turns body.Leads (n + 1) s u) : (Core.loop greedy body).Complete sets s.spot u.spot := by
  induction n generalizing s with
  | zero =>
    obtain hpassed | hstarts := ih (turns_one.1 h)
    · exact .inl hpassed
    · refine .inr fun T next hT hnext => hstarts T _ hT ?_
      obtain ⟨v, hv, hreach⟩ := hnext
      exact ⟨v, mem_next_loop.2 (.inr hv), hreach⟩
  | succ n ihn =>
    obtain ⟨t, hst, htu⟩ := h
    obtain ⟨hut, u', hu', hskip, hmeets⟩ | hlater := ihn htu
    · rw [hut]
      obtain hpassed | hstarts := ih hst
      · exact .inl hpassed
      · refine .inr fun T next hT hnext => hstarts T _ hT ?_
        obtain ⟨v, hv, hreach⟩ := hnext
        exact ⟨v, mem_next_loop.2 (.inr hv), hreach⟩
    · refine .inr fun T next hT hnext => ?_
      obtain ⟨v, hv, hread, hreach⟩ := hlater T next hT hnext
      obtain ⟨hts, -⟩ | hstarts := ih hst
      · exact hts ▸ ⟨v, hv, hread, hreach⟩
      · exact hstarts T _ hT ⟨v, mem_next_loop.2 (.inl ⟨hv, hread⟩), hreach⟩

/-- What a part does, an expression does that has the ways of the part and reads on as the part does. -/
theorem Complete.of_covers {sets : Nat → CharSet} {part c : Core} {x y : Spot}
    (h : part.Complete sets x y)
    (hcovers : ∀ v ∈ part.first, ∃ w ∈ c.first, w.covers v = true)
    (hfollow : ∀ T next, Table.Holds T (c.follow next) → Table.Holds T (part.follow next)) :
    c.Complete sets x y := by
  obtain ⟨hyx, hpassed⟩ | hstarts := h
  · exact .inl ⟨hyx, hpassed.of_covers hcovers⟩
  · exact .inr fun T next hT hnext => (hstarts T next (hfollow T next hT) hnext).of_covers hcovers

/-- Wherever an expression leads, its first ways can be taken. -/
theorem complete_of_leads {sets : Nat → CharSet} {c : Core} (hc : c.Labelled sets) {s t : Trail}
    (h : c.Leads s t) : c.Complete sets s.spot t.spot := by
  induction c generalizing s t with
  | empty =>
    obtain rfl : t = s := h
    exact .inl ⟨rfl, {}, List.mem_singleton_self _, rfl, List.forall_mem_nil _⟩
  | read pos set =>
    obtain ⟨r, rest, hrest, hmem, rfl⟩ := h
    have hset : sets pos = set := hc (pos, set) (List.mem_singleton_self _)
    refine .inr fun T next hT hnext => ?_
    obtain ⟨v, hv, hreach⟩ := hnext
    have hrow : T pos = next := hT (pos, next) (List.mem_singleton_self _)
    exact ⟨_, List.mem_singleton_self _, rfl,
      .read (List.forall_mem_nil _) rfl hrest (hset ▸ hmem) (hrow ▸ hv) hreach⟩
  | place p =>
    obtain ⟨hholds, rfl⟩ := h
    exact .inl ⟨rfl, _, List.mem_singleton_self _, rfl, List.forall_mem_singleton.2 hholds⟩
  | group n body ih =>
    obtain ⟨u, hu, rfl⟩ := h
    obtain ⟨hus, w, hw, hskip, hmeets⟩ | hstarts := ih hc hu
    · exact .inl ⟨hus, _, List.mem_map_of_mem hw, hskip, hmeets⟩
    · refine .inr fun T next hT hnext => ?_
      obtain ⟨v, hv, hreach⟩ := hnext
      obtain ⟨w, hw, hread, hreach⟩ :=
        hstarts T _ hT ⟨_, List.mem_map_of_mem hv, Reaches.of_same (w := v) rfl rfl hreach⟩
      exact ⟨_, List.mem_map_of_mem hw, hread, Reaches.of_same (w := w) rfl rfl hreach⟩
  | seq a b iha ihb =>
    obtain ⟨u, hsu, hut⟩ := h
    have ha := iha (fun q hq => hc q (List.mem_append_left _ hq)) hsu
    have hb := ihb (fun q hq => hc q (List.mem_append_right _ hq)) hut
    obtain ⟨hus, hpassed⟩ | hstarts := ha
    · obtain ⟨htu, hpassed'⟩ | hstarts' := hb
      · exact .inl ⟨htu.trans hus, hpassed.andThen (hus ▸ hpassed')⟩
      · refine .inr fun T next hT hnext => ?_
        have hbstarts := hstarts' T next (Table.holds_append.1 hT).2 hnext
        exact .andThen_right hpassed (hus ▸ hbstarts)
    · refine .inr fun T next hT hnext => ?_
      obtain ⟨hTa, hTb⟩ := Table.holds_append.1 hT
      refine (hstarts T _ hTa ?_).andThen_left
      obtain ⟨htu, hpassed⟩ | hstarts' := hb
      · exact .andThen_right hpassed (htu ▸ hnext)
      · exact (hstarts' T next hTb hnext).andThen_left.enters
  | alt a b iha ihb =>
    have hcovers := (Way.pruneSkips_spec (a.first ++ b.first)).2
    have hleft : ∀ v ∈ a.first, ∃ w ∈ (Core.alt a b).first, w.covers v = true :=
      fun v hv => hcovers v (List.mem_append_left _ hv)
    have hright : ∀ v ∈ b.first, ∃ w ∈ (Core.alt a b).first, w.covers v = true :=
      fun v hv => hcovers v (List.mem_append_right _ hv)
    obtain h | h := h
    · have hpart := iha (fun q hq => hc q (List.mem_append_left _ hq)) h
      exact hpart.of_covers hleft fun T next hT => (Table.holds_append.1 hT).1
    · have hpart := ihb (fun q hq => hc q (List.mem_append_right _ hq)) h
      exact hpart.of_covers hright fun T next hT => (Table.holds_append.1 hT).2
  | opt greedy body ih =>
    have hcovers := (Way.pruneSkips_spec
      (if greedy then body.first ++ [({} : Way)] else {} :: body.first)).2
    have hbody : ∀ v ∈ body.first, ∃ w ∈ (Core.opt greedy body).first, w.covers v = true :=
      fun v hv => hcovers v (by cases greedy <;> simp [hv])
    obtain rfl | h := h
    · obtain ⟨w, hw, hcover⟩ := hcovers {} (by cases greedy <;> simp)
      exact .inl ⟨rfl, w, hw, isSkip_of_covers hcover, meets_of_covers hcover (List.forall_mem_nil _)⟩
    · exact (ih hc h).of_covers hbody fun T next hT => hT
  | loop greedy body ih =>
    obtain ⟨n, hturns⟩ := h
    exact complete_loop (ih hc) hturns

end Core

end Regex

end LiteralAudit
