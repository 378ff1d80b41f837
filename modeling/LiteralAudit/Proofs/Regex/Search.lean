import LiteralAudit.Proofs.Regex.Numbering

/-!
# What a search finds

A search keeps the attempts that are under way at one place of the text. What it finds is what one of the
ways that were open to them leads to (`settle_sound`), and a way that can be taken to the end is dropped
only for one that waits at the same position, from which the same can be reached (`settle_complete`).
Along the text this makes a search find a match of the expression (`searchFrom_sound`) whenever there is
one (`searchFrom_complete`).
-/

namespace LiteralAudit.Pattern

open Regex

/-! ## Marks of attempts -/

theorem mark?_pass (a : Attempt) (place : Nat) (borders : List Nat) :
    (a.pass place borders).mark? = Marks.pass a.mark? place borders := by
  have hfold : ∀ (borders : List Nat) (marks : List (Nat × Nat)) (b : Nat),
      (borders.foldl (fun marks b => (b, place) :: marks) marks).lookup b =
        if b ∈ borders then some place else marks.lookup b := by
    intro borders
    induction borders with
    | nil => simp
    | cons c borders ih =>
      intro marks b
      rw [List.foldl_cons, ih, List.lookup_cons]
      by_cases hb : b ∈ borders
      · simp [hb]
      · by_cases hc : b = c
        · simp [hc]
        · simp [hb, hc, beq_false_of_ne hc]
  funext b
  exact hfold borders a.marks b

/-- The trail of an attempt that starts at a spot. -/
def begun (x : Spot) : Trail := ⟨x, Attempt.mark? ⟨[(0, x.place)]⟩⟩

/-- A match that ends with a trail: its own last border is passed there. -/
def Ends (a : Attempt) (t : Trail) : Prop := a.mark? = (t.pass [1]).marks

/-! ## One place -/

section Settle

variable {T : Table} {Q : Trail → Prop} {x : Spot}

/-- Wherever a way leads an attempt, `Q` holds. -/
def Leading (T : Table) (Q : Trail → Prop) (x : Spot) (open' : Way × Attempt) : Prop :=
  ∀ u, Goes T open'.1 ⟨x, open'.2.mark?⟩ u → Q u

/-- Wherever an attempt goes on that waits for the next character, `Q` holds. -/
def Awaiting (T : Table) (Q : Trail → Prop) (x : Spot) (w : Waiting) : Prop :=
  ∀ r rest, x.rest = r :: rest → w.set.mem r.char.toNat = true →
    ∀ v ∈ T w.pos, Leading T Q (x.past r rest) (v, w.attempt)

/-- All that comes of the ways open at a place leads to what the ways lead to. -/
theorem settle_sound {ways : List (Way × Attempt)} {s : Standing}
    (hways : ∀ o ∈ ways, Leading T Q x o) (hs : ∀ w ∈ s.waiting, Awaiting T Q x w) :
    (∀ w ∈ (settle x.place x.before x.after s ways).1.waiting, Awaiting T Q x w) ∧
      ∀ a, (settle x.place x.before x.after s ways).2 = some a → ∃ t, Q t ∧ Ends a t := by
  induction ways generalizing s with
  | nil => exact ⟨hs, fun a ha => by cases ha⟩
  | cons o ways ih =>
    obtain ⟨way, attempt⟩ := o
    have hlead : Leading T Q x (way, attempt) := hways _ (List.mem_cons_self ..)
    have hrest : ∀ o ∈ ways, Leading T Q x o := fun o ho => hways o (List.mem_cons_of_mem _ ho)
    rw [settle]
    split
    · next hall =>
      have hmeets : x.Meets way.conditions := by simpa [Spot.Meets] using hall
      split
      · next hskip =>
        refine ⟨hs, fun a ha => ?_⟩
        cases ha
        refine ⟨_, hlead _ (.skip hmeets hskip), ?_⟩
        rw [Ends, mark?_pass, Trail.pass_pass]
        rfl
      · next pos set hread =>
        split
        · exact ih hrest hs
        · refine ih hrest (List.forall_mem_cons.2 ⟨?_, hs⟩)
          intro r rest hx hmem v hv u hgo
          refine hlead u (.read hmeets hread hx hmem hv ?_)
          rw [mark?_pass] at hgo
          exact hgo
    · exact ih hrest hs

/-- Everything that was reached at a place is waiting there, and reads what its position reads. -/
structure Kept (sets : Nat → CharSet) (place : Nat) (s : Standing) : Prop where
  waits : ∀ pos, s.isReached place pos = true → ∃ w ∈ s.waiting, w.pos = pos
  set : ∀ w ∈ s.waiting, w.set = sets w.pos

theorem kept_of_le {sets : Nat → CharSet} {place : Nat} {reached : Array Nat}
    (h : ∀ pos, reached.getD pos 0 ≤ place) : Kept sets place { reached } := by
  refine ⟨fun pos hpos => ?_, List.forall_mem_nil _⟩
  have hle := h pos
  have heq : reached.getD pos 0 = place + 1 := by simpa [Standing.isReached] using hpos
  omega

theorem Kept.wait {sets : Nat → CharSet} {place : Nat} {s : Standing} (h : Kept sets place s)
    {w : Waiting} (hw : w.set = sets w.pos) : Kept sets place (s.wait place w) := by
  refine ⟨fun pos hpos => ?_, List.forall_mem_cons.2 ⟨hw, h.set⟩⟩
  by_cases hsame : w.pos = pos
  · exact ⟨w, List.mem_cons_self .., hsame⟩
  · have hold : s.isReached place pos = true := by
      unfold Standing.isReached Standing.wait at hpos
      rw [Array.getD_eq_getD_getElem?, Array.getElem?_setIfInBounds_ne hsame] at hpos
      rwa [Standing.isReached, Array.getD_eq_getD_getElem?]
    obtain ⟨v, hv, hvpos⟩ := h.waits pos hold
    exact ⟨v, List.mem_cons_of_mem _ hv, hvpos⟩

/-- An attempt that waits can go on to the end. -/
def GoesOn (sets : Nat → CharSet) (T : Table) (x : Spot) (w : Waiting) : Prop :=
  ∃ r rest, x.rest = r :: rest ∧ w.set.mem r.char.toNat = true ∧ Enters sets T (T w.pos) (x.past r rest)

/-- What waits already when more ways are sorted is still waiting behind them. -/
theorem waiting_subset_settle (ways : List (Way × Attempt)) (s : Standing) :
    ∀ w ∈ s.waiting, w ∈ (settle x.place x.before x.after s ways).1.waiting := by
  induction ways generalizing s with
  | nil => exact fun w hw => hw
  | cons o ways ih =>
    obtain ⟨way, attempt⟩ := o
    rw [settle]
    split
    · split
      · exact fun w hw => hw
      · split
        · exact ih s
        · exact fun w hw => ih _ w (List.mem_cons_of_mem _ hw)
    · exact ih s

/-- When a way open at a place can be taken to the end, there is a match, or an attempt waits that can go
on to the end. -/
theorem settle_complete {sets : Nat → CharSet} {ways : List (Way × Attempt)} {s : Standing}
    (hs : Kept sets x.place s)
    (hsets : ∀ o ∈ ways, ∀ p set, o.1.target = .read p set → set = sets p)
    (h : ∃ o ∈ ways, Reaches sets T o.1 x) :
    (settle x.place x.before x.after s ways).2.isSome = true ∨
      ∃ w ∈ (settle x.place x.before x.after s ways).1.waiting, GoesOn sets T x w := by
  induction ways generalizing s with
  | nil => obtain ⟨o, ho, -⟩ := h; cases ho
  | cons o ways ih =>
    obtain ⟨way, attempt⟩ := o
    have hrest : ∀ o ∈ ways, ∀ p set, o.1.target = .read p set → set = sets p :=
      fun o ho => hsets o (List.mem_cons_of_mem _ ho)
    obtain ⟨o, ho, hreach⟩ := h
    rw [settle]
    split
    · split
      · exact .inl rfl
      · next pos set hread =>
        have hset : set = sets pos := hsets _ (List.mem_cons_self ..) pos set hread
        -- Whatever waits at the position can go on as this way could.
        have hgoes : ∀ w : Waiting, w.pos = pos → w.set = sets w.pos → Reaches sets T way x →
            GoesOn sets T x w := by
          rintro w rfl hw (⟨-, hskip⟩ | ⟨-, htarget, hx, hmem, hv, hreach⟩)
          · rw [hread] at hskip
            cases hskip
          · rw [hread] at htarget
            cases htarget
            exact ⟨_, _, hx, hw ▸ hmem, _, hv, hreach⟩
        split
        · next hreached =>
          obtain rfl | ho := List.mem_cons.1 ho
          · obtain ⟨w, hw, hpos⟩ := hs.waits pos hreached
            exact .inr ⟨w, waiting_subset_settle ways s w hw, hgoes w hpos (hs.set w hw) hreach⟩
          · exact ih hs hrest ⟨o, ho, hreach⟩
        · obtain rfl | ho := List.mem_cons.1 ho
          · exact .inr ⟨_, waiting_subset_settle ways _ _ (List.mem_cons_self ..), hgoes _ rfl hset hreach⟩
          · exact ih (hs.wait hset) hrest ⟨o, ho, hreach⟩
    · next hall =>
      obtain rfl | ho := List.mem_cons.1 ho
      · refine absurd ?_ hall
        cases hreach with
        | skip hmeets => simpa [Spot.Meets] using hmeets
        | read hmeets => simpa [Spot.Meets] using hmeets
      · exact ih hs hrest ⟨o, ho, hreach⟩

/-- What has been reached so far was reached here or before. -/
theorem reached_settle_le {ways : List (Way × Attempt)} {s : Standing}
    (hs : ∀ pos, s.reached.getD pos 0 ≤ x.place + 1) :
    ∀ pos, (settle x.place x.before x.after s ways).1.reached.getD pos 0 ≤ x.place + 1 := by
  induction ways generalizing s with
  | nil => exact hs
  | cons o ways ih =>
    obtain ⟨way, attempt⟩ := o
    rw [settle]
    split
    · split
      · exact hs
      · next p _ _ =>
        split
        · exact ih hs
        · refine ih fun pos => ?_
          unfold Standing.wait
          rw [Array.getD_eq_getD_getElem?, Array.getElem?_setIfInBounds]
          have hold := hs pos
          rw [Array.getD_eq_getD_getElem?] at hold
          split
          · split <;> simp
          · exact hold
    · exact ih hs

end Settle

/-! ## Along the text -/

theorem mem_advance {m : Automaton} {c : Char} {waiting : List Waiting} {o : Way × Attempt} :
    o ∈ advance m c waiting ↔
      ∃ w ∈ waiting, w.set.mem c.toNat = true ∧ o.1 ∈ m.table w.pos ∧ o.2 = w.attempt := by
  unfold advance
  rw [List.mem_flatMap]
  refine exists_congr fun w => and_congr_right fun _ => ?_
  split
  · next hmem =>
    rw [List.mem_map]
    constructor
    · rintro ⟨v, hv, rfl⟩
      exact ⟨hmem, hv, rfl⟩
    · rintro ⟨-, hv, ha⟩
      exact ⟨o.1, hv, ha ▸ rfl⟩
  · next hmem => simp [hmem]

theorem width_first_pos (b : UInt8) (rest : Text) : 0 < (Rune.first b rest).width := by
  unfold Rune.first
  repeat' split
  all_goals exact Nat.succ_pos _

section Scan

variable {m : Automaton} {fresh : List Way}

/-- The spot of a search: `skip` bytes of the text belong to the character before. -/
def spotOf (place : Nat) (before : Option Char) (skip : Nat) (t : Text) : Spot :=
  ⟨place, before, Text.runesFrom skip t⟩

/-- The ways of a new attempt at a spot. -/
def opened (fresh : List Way) (x : Spot) : List (Way × Attempt) :=
  fresh.map (·, ⟨[(0, x.place)]⟩)

/-- The ways open behind a character, given the match found so far. -/
def stepped (m : Automaton) (fresh : List Way) (r : Rune) (y : Spot) (s : Standing)
    (best : Option Attempt) : List (Way × Attempt) :=
  advance m r.char s.waiting.reverse ++ if best.isNone then opened fresh y else []

/-- A way that is open behind a character goes on with an attempt that waited for it, or starts a new
one. -/
theorem mem_stepped {r : Rune} {y : Spot} {s : Standing} {best : Option Attempt} {o : Way × Attempt}
    (h : o ∈ stepped m fresh r y s best) :
    (∃ w ∈ s.waiting, w.set.mem r.char.toNat = true ∧ o.1 ∈ m.table w.pos ∧ o.2 = w.attempt) ∨
      o ∈ opened fresh y := by
  obtain h | h := List.mem_append.1 h
  · obtain ⟨w, hw, hgoes⟩ := mem_advance.1 h
    exact .inl ⟨w, List.mem_reverse.1 hw, hgoes⟩
  · split at h
    · exact .inr h
    · cases h

/-- A search takes one character after the other. -/
theorem scan_cons (place : Nat) (before : Option Char) (reached : Array Nat)
    (ways : List (Way × Attempt)) (best : Option Attempt) (b : UInt8) (rest : Text) :
    let r := Rune.first b rest
    let x := spotOf place before 0 (b :: rest)
    let settled := settle x.place x.before x.after { reached } ways
    let best' := settled.2 <|> best
    let ways' := stepped m fresh r (x.past r (Text.runesFrom (r.width - 1) rest)) settled.1 best'
    scan m fresh place before reached ways best 0 (b :: rest) =
      if ways'.isEmpty then best'
      else scan m fresh (place + r.width) (some r.char) settled.1.reached ways' best' (r.width - 1)
        rest := by
  intro r x settled best' ways'
  rw [scan]
  have hways : (if best'.isNone = true then
      advance m r.char settled.1.waiting.reverse ++ fresh.map (·, ⟨[(0, place + r.width)]⟩)
      else advance m r.char settled.1.waiting.reverse) = ways' := by
    show _ = stepped m fresh r _ settled.1 best'
    unfold stepped
    split <;> simp [opened, Spot.past, x, spotOf]
  rw [← hways]
  rfl

theorem scan_nil (place : Nat) (before : Option Char) (reached : Array Nat)
    (ways : List (Way × Attempt)) (best : Option Attempt) (skip : Nat) :
    scan m fresh place before reached ways best skip [] =
      ((settle place before none { reached } ways).2 <|> best) := by
  unfold scan
  split <;> simp_all

theorem mem_orElse {α : Type} {x y : Option α} {a : α} (h : a ∈ (x <|> y)) : a ∈ x ∨ a ∈ y := by
  cases x with
  | none => exact .inr h
  | some b => exact .inl h

theorem isSome_orElse {α : Type} (x y : Option α) :
    (x <|> y).isSome = true ↔ x.isSome = true ∨ y.isSome = true := by
  cases x <;> simp

/-- What a search finds is what a way leads to that is open at the start, or to a new attempt later. -/
theorem scan_sound {Q : Trail → Prop} {place : Nat} {before : Option Char} {reached : Array Nat}
    {ways : List (Way × Attempt)} {best : Option Attempt} {skip : Nat} {t : Text}
    (hfresh : ∀ y v, (spotOf place before skip t).Passes v y →
      ∀ o ∈ opened fresh y, Leading m.table Q y o)
    (hways : ∀ o ∈ ways, Leading m.table Q (spotOf place before skip t) o)
    (hbest : ∀ a ∈ best, ∃ u, Q u ∧ Ends a u) :
    ∀ a ∈ scan m fresh place before reached ways best skip t, ∃ u, Q u ∧ Ends a u := by
  induction t generalizing place before reached ways best skip with
  | nil =>
    have hsound := (settle_sound (s := { reached }) hways (List.forall_mem_nil _)).2
    rw [scan_nil]
    intro a ha
    obtain ha | ha := mem_orElse ha
    · exact hsound a ha
    · exact hbest a ha
  | cons b rest ih =>
    cases skip with
    | succ skip =>
      rw [scan]
      exact ih hfresh hways hbest
    | zero =>
      obtain ⟨hwaiting, hdone⟩ := settle_sound (s := { reached }) hways (List.forall_mem_nil _)
      have hrest : (spotOf place before 0 (b :: rest)).rest =
          Rune.first b rest :: Text.runesFrom ((Rune.first b rest).width - 1) rest := rfl
      have hpast := Spot.Passes.past hrest
      rw [scan_cons]
      generalize settle (spotOf place before 0 (b :: rest)).place (spotOf place before 0 (b :: rest)).before
        (spotOf place before 0 (b :: rest)).after { reached } ways = settled at hwaiting hdone ⊢
      have hbest' : ∀ a ∈ (settled.2 <|> best), ∃ u, Q u ∧ Ends a u := by
        intro a ha
        obtain ha | ha := mem_orElse ha
        · exact hdone a ha
        · exact hbest a ha
      split
      · exact hbest'
      · refine ih (fun y v hv => hfresh y _ (hpast.trans hv)) (fun o ho => ?_) hbest'
        obtain ⟨w, hw, hmem, hv, hattempt⟩ | ho := mem_stepped ho
        · have hgoes := hwaiting w hw _ _ hrest hmem o.1 hv
          rwa [← hattempt] at hgoes
        · exact hfresh _ _ hpast o ho

/-- Behind a character, an attempt that waited for it goes on, and new attempts start. -/
theorem stepped_complete {sets : Nat → CharSet} {x : Spot} {r : Rune} {rest : List Rune}
    (hrest : x.rest = r :: rest) {s : Standing} {best : Option Attempt} (hbest : best = none)
    (h : (∃ w ∈ s.waiting, GoesOn sets m.table x w) ∨
      ∃ y v, (x.past r rest).Passes v y ∧ Enters sets m.table fresh y) :
    (stepped m fresh r (x.past r rest) s best).isEmpty = false ∧
      ((∃ o ∈ stepped m fresh r (x.past r rest) s best, Reaches sets m.table o.1 (x.past r rest)) ∨
        ∃ y c v, (x.past r rest).Passes (c :: v) y ∧ Enters sets m.table fresh y) := by
  have hopened : ∀ w ∈ fresh, (w, ⟨[(0, (x.past r rest).place)]⟩) ∈
      stepped m fresh r (x.past r rest) s best := by
    intro w hw
    rw [stepped, hbest]
    exact List.mem_append_right _ (List.mem_map_of_mem hw)
  have hnonempty : ∀ o ∈ stepped m fresh r (x.past r rest) s best,
      (stepped m fresh r (x.past r rest) s best).isEmpty = false :=
    fun o ho => List.isEmpty_eq_false_iff.2 (List.ne_nil_of_mem ho)
  obtain ⟨w, hw, r', rest', hrest', hmem, v, hv, hreach⟩ | ⟨y, v, hpasses, w, hw, hreach⟩ := h
  · rw [hrest] at hrest'
    cases hrest'
    have ho : (v, w.attempt) ∈ stepped m fresh r (x.past r rest) s best :=
      List.mem_append_left _ (mem_advance.2 ⟨w, List.mem_reverse.2 hw, hmem, hv, rfl⟩)
    exact ⟨hnonempty _ ho, .inl ⟨_, ho, hreach⟩⟩
  · refine ⟨hnonempty _ (hopened w hw), ?_⟩
    cases v with
    | nil =>
      rw [hpasses.eq_of_nil] at hreach
      exact .inl ⟨_, hopened w hw, hreach⟩
    | cons c v => exact .inr ⟨y, c, v, hpasses, w, hw, hreach⟩

/-- A search finds something when there is a match already, when a way can be taken to the end that is
open at the start, or when a new attempt can be taken to the end later. -/
theorem scan_complete {sets : Nat → CharSet}
    (hsets : ∀ p, ∀ w ∈ m.table p, ∀ q set, w.target = .read q set → set = sets q)
    (hfresh : ∀ w ∈ fresh, ∀ q set, w.target = .read q set → set = sets q)
    {place : Nat} {before : Option Char} {reached : Array Nat} {ways : List (Way × Attempt)}
    {best : Option Attempt} {skip : Nat} {t : Text}
    (hways : ∀ o ∈ ways, ∀ q set, o.1.target = .read q set → set = sets q)
    (hreached : ∀ pos, reached.getD pos 0 ≤ place)
    (h : best.isSome = true ∨
      (∃ o ∈ ways, Reaches sets m.table o.1 (spotOf place before skip t)) ∨
      ∃ y r v, (spotOf place before skip t).Passes (r :: v) y ∧ Enters sets m.table fresh y) :
    (scan m fresh place before reached ways best skip t).isSome = true := by
  induction t generalizing place before reached ways best skip with
  | nil =>
    rw [scan_nil]
    obtain hbest | hreach | ⟨y, r, v, hpasses, -⟩ := h
    · exact (isSome_orElse _ _).2 (.inr hbest)
    · obtain hdone | ⟨w, -, r, rest, hrest, -⟩ := settle_complete (kept_of_le hreached) hways hreach
      · exact (isSome_orElse _ _).2 (.inl hdone)
      · cases hrest
    · cases hpasses.rest
  | cons b rest ih =>
    cases skip with
    | succ skip =>
      rw [scan]
      exact ih hways hreached h
    | zero =>
      have hrest : (spotOf place before 0 (b :: rest)).rest =
          Rune.first b rest :: Text.runesFrom ((Rune.first b rest).width - 1) rest := rfl
      have hsettled := settle_complete (T := m.table) (x := spotOf place before 0 (b :: rest))
        (kept_of_le hreached) hways
      have hle : ∀ pos, _ ≤ place + (Rune.first b rest).width := fun pos =>
        (@reached_settle_le (spotOf place before 0 (b :: rest)) ways { reached }
          (fun pos => (hreached pos).trans (Nat.le_succ _)) pos).trans
          (Nat.add_le_add_left (width_first_pos b rest) place)
      rw [scan_cons]
      generalize settle (spotOf place before 0 (b :: rest)).place
        (spotOf place before 0 (b :: rest)).before (spotOf place before 0 (b :: rest)).after { reached }
        ways = settled at hsettled hle ⊢
      have hways' : ∀ o ∈ stepped m fresh (Rune.first b rest) ((spotOf place before 0 (b :: rest)).past
          (Rune.first b rest) (Text.runesFrom ((Rune.first b rest).width - 1) rest)) settled.1
          (settled.2 <|> best), ∀ q set, o.1.target = .read q set → set = sets q := by
        intro o ho
        obtain ⟨w, -, -, hv, -⟩ | ho := mem_stepped ho
        · exact hsets w.pos o.1 hv
        · obtain ⟨w, hw, rfl⟩ := List.mem_map.1 ho
          exact hfresh w hw
      cases hbest : (settled.2 <|> best) with
      | some a =>
        split
        · rfl
        · exact ih (hbest ▸ hways') hle (.inl rfl)
      | none =>
        obtain ⟨hnodone, hnobest⟩ := (Option.orElse_eq_none _ _).1 hbest
        have hcase : (∃ w ∈ settled.1.waiting, GoesOn sets m.table (spotOf place before 0 (b :: rest)) w) ∨
            ∃ y v, ((spotOf place before 0 (b :: rest)).past (Rune.first b rest)
              (Text.runesFrom ((Rune.first b rest).width - 1) rest)).Passes v y ∧
              Enters sets m.table fresh y := by
          obtain h | hreach | ⟨y, r, v, hpasses, henters⟩ := h
          · rw [hnobest] at h
            cases h
          · obtain hdone | hgoes := hsettled hreach
            · rw [hnodone] at hdone
              cases hdone
            · exact .inl hgoes
          · obtain ⟨rfl, -⟩ := List.cons.inj (hrest.symm.trans hpasses.rest)
            exact .inr ⟨y, v, hpasses.of_cons hrest, henters⟩
        obtain ⟨hnonempty, hlater⟩ := stepped_complete hrest rfl hcase
        rw [hnonempty, if_neg Bool.false_ne_true]
        exact ih (hbest ▸ hways') hle (.inr hlater)

end Scan

/-! ## One search -/

theorem of_mem_starts {m : Automaton} {before : Option Char} {w : Way} (h : w ∈ starts m before) :
    w ∈ m.start := by
  unfold starts at h
  split at h
  · exact h
  · exact (List.mem_filter.1 h).1

/-- Past the start of the text, a way that can be taken does not demand it. -/
theorem mem_starts {m : Automaton} {sets : Nat → CharSet} {T : Table} {before : Option Char} {w : Way}
    {y : Spot} (hw : w ∈ m.start) (h : Reaches sets T w y)
    (hbefore : before.isSome = true → y.before.isSome = true) : w ∈ starts m before := by
  unfold starts
  split
  · exact hw
  · next hsome =>
    refine List.mem_filter.2 ⟨hw, ?_⟩
    have hmeets : y.Meets w.conditions := by
      cases h with
      | skip hmeets => exact hmeets
      | read hmeets => exact hmeets
    have hstart : Place.textStart ∉ w.conditions := by
      intro hmem
      have hnone : y.before.isNone = true := hmeets _ hmem
      have hy := hbefore (by simpa [Option.isSome_iff_ne_none] using hsome)
      rw [Option.isNone_iff_eq_none] at hnone
      rw [hnone] at hy
      cases hy
    simpa using hstart

variable {r : Regex} {place : Nat} {before : Option Char} {t : Text}

/-- What a search finds is a match of the expression, which starts where the search does or later. -/
theorem searchFrom_sound {a : Attempt} (h : searchFrom r.automaton place before t = some a) :
    ∃ y v u, (spotOf place before 0 t).Passes v y ∧ r.Leads (begun y) u ∧ Ends a u := by
  have hopened : ∀ before' y v, (spotOf place before 0 t).Passes v y →
      ∀ o ∈ opened (starts r.automaton before') y, Leading r.automaton.table
        (fun u => ∃ y v, (spotOf place before 0 t).Passes v y ∧ r.Leads (begun y) u) y o := by
    intro before' y v hv o ho u hgo
    obtain ⟨w, hw, rfl⟩ := List.mem_map.1 ho
    exact ⟨y, v, hv, leads_of_start (of_mem_starts hw) hgo⟩
  unfold searchFrom at h
  dsimp only at h
  split at h
  · cases h
  · obtain ⟨u, ⟨y, v, hv, hlead⟩, hends⟩ := scan_sound (hopened _)
      (hopened before _ [] (.refl _)) (fun a ha => by cases ha) a h
    exact ⟨y, v, u, hv, hlead, hends⟩

/-- Where there is a match of the expression, a search finds one. -/
theorem searchFrom_complete {s u : Trail} {v : List Rune}
    (hpasses : (spotOf place before 0 t).Passes v s.spot) (hlead : r.Leads s u) :
    (searchFrom r.automaton place before t).isSome = true := by
  obtain ⟨w, hw, hreach⟩ := enters_of_leads hlead
  have hsome : before.isSome = true → s.spot.before.isSome = true := by
    intro hbefore
    rw [hpasses.before]
    cases v.getLast? with
    | none => exact hbefore
    | some c => rfl
  have hopening : w ∈ starts r.automaton before := mem_starts hw hreach hsome
  have hmem : (w, ⟨[(0, place)]⟩) ∈ opened (starts r.automaton before) (spotOf place before 0 t) :=
    List.mem_map_of_mem hopening
  unfold searchFrom
  dsimp only
  rw [if_neg (by simpa using List.ne_nil_of_mem hopening)]
  have hmarked : ∀ p, ∀ w ∈ r.automaton.table p, ∀ q set, w.target = .read q set → set = r.sets q :=
    fun p w hw => marked_table hw
  refine scan_complete hmarked (fun w hw => marked_start (of_mem_starts hw)) ?_ ?_ ?_
  · intro o ho
    obtain ⟨w, hw, rfl⟩ := List.mem_map.1 ho
    exact marked_start (of_mem_starts hw)
  · intro pos
    rw [Array.getD_eq_getD_getElem?, Array.getElem?_replicate]
    split <;> exact Nat.zero_le _
  · cases v with
    | nil =>
      rw [hpasses.eq_of_nil] at hreach
      exact .inr (.inl ⟨_, hmem, hreach⟩)
    | cons c v =>
      refine .inr (.inr ⟨s.spot, c, v, hpasses, w, mem_starts hw hreach fun _ => ?_, hreach⟩)
      rw [hpasses.before]
      cases hlast : (c :: v).getLast? with
      | none => simp at hlast
      | some d => rfl

/-! ## All matches -/

theorem runesFrom_eq (k : Nat) (t : Text) : Text.runesFrom k t = Text.runes (t.drop k) := by
  induction t generalizing k with
  | nil => cases k <;> rfl
  | cons b t ih =>
    cases k with
    | zero => rfl
    | succ k => exact ih k

/-- Behind the bytes of some runes stand the other ones. -/
theorem runes_drop {t : Text} {w rest : List Rune} (h : t.runes = w ++ rest) :
    Text.runes (t.drop (w.map (·.width)).sum) = rest := by
  induction w generalizing t with
  | nil => exact h
  | cons r w ih =>
    cases t with
    | nil => cases h
    | cons b t =>
      obtain ⟨hr, hrest⟩ := List.cons.inj h
      have hwidth : 0 < r.width := hr ▸ width_first_pos b t
      rw [hr, runesFrom_eq] at hrest
      have hdrop := ih hrest
      rw [List.drop_drop] at hdrop
      obtain ⟨k, hk⟩ := Nat.exists_eq_add_of_lt hwidth
      rw [List.map_cons, List.sum_cons]
      rw [show r.width + (w.map (·.width)).sum = (r.width - 1 + (w.map (·.width)).sum) + 1 by omega]
      exact hdrop

/-- A match of an expression in a text: it starts and ends at places between runes, and its marks are those
that the expression leaves. -/
def Occurs (r : Regex) (t : Text) (m : Match) : Prop :=
  ∃ front x u, t.runes = front ++ x.rest ∧ x.place = (front.map (·.width)).sum ∧
    r.Leads (begun x) u ∧ Ends m.attempt u ∧ m.start = x.place ∧ m.stop = u.spot.place

/-- Where an attempt that has ended starts and ends. -/
theorem ofAttempt_of_ends (hr : 0 ∉ r.groups) {a : Attempt} {x : Spot} {u : Trail}
    (hlead : r.Leads (begun x) u) (hends : Ends a u) :
    (Match.ofAttempt a).start = x.place ∧ (Match.ofAttempt a).stop = u.spot.place := by
  have hstart : a.mark? 0 = some x.place := by
    rw [hends]
    show u.marks 0 = _
    rw [hlead.marks_eq hr]
    rfl
  have hstop : a.mark? 1 = some u.spot.place := by
    rw [hends]
    rfl
  simp [Match.ofAttempt, hstart, hstop]

theorem occurs_of_mem_findAllFrom (hr : 0 ∉ r.groups) {whole : Text} {front : List Rune} {fuel : Nat}
    {lastStop : Option Nat} (hwhole : whole.runes = front ++ t.runes)
    (hplace : place = (front.map (·.width)).sum) :
    ∀ m ∈ findAllFrom r.automaton fuel place before lastStop t, Occurs r whole m := by
  induction fuel generalizing front place before lastStop t with
  | zero => exact List.forall_mem_nil _
  | succ fuel ih =>
    rw [findAllFrom]
    split
    · exact List.forall_mem_nil _
    · next a hfound =>
      obtain ⟨y, v, u, hpasses, hlead, hends⟩ := searchFrom_sound hfound
      obtain ⟨hstart, hstop⟩ := ofAttempt_of_ends hr hlead hends
      have hoccurs : Occurs r whole (Match.ofAttempt a) := by
        refine ⟨front ++ v, y, u, ?_, ?_, hlead, hends, hstart, hstop⟩
        · rw [hwhole, List.append_assoc]
          exact congrArg (front ++ ·) hpasses.rest
        · rw [hpasses.place, List.map_append, List.sum_append, ← hplace]
          rfl
      dsimp only
      split
      · -- An empty match: the search goes on behind the next rune.
        have hhere : ∀ m ∈ (if (lastStop == some (Match.ofAttempt a).start) = true then []
            else [Match.ofAttempt a]), Occurs r whole m := by
          split
          · exact List.forall_mem_nil _
          · exact List.forall_mem_singleton.2 hoccurs
        split
        · exact hhere
        · next b rest =>
          have hrunes : Text.runes (b :: rest) =
              [Rune.first b rest] ++ Text.runesFrom ((Rune.first b rest).width - 1) rest := rfl
          have hdrop := runes_drop hrunes
          rw [List.map_singleton, List.sum_singleton] at hdrop
          have hwhole' : whole.runes = front ++ [Rune.first b rest] ++
              Text.runes ((b :: rest).drop (Rune.first b rest).width) := by
            rw [hwhole, List.append_assoc, hdrop]
            rfl
          have hplace' : place + (Rune.first b rest).width =
              ((front ++ [Rune.first b rest]).map (·.width)).sum := by
            rw [hplace, List.map_append, List.sum_append]
            rfl
          exact List.forall_mem_append.2 ⟨hhere, ih hwhole' hplace'⟩
      · -- The search goes on where the match has ended.
        obtain ⟨w, hw⟩ := hlead.exists_passes
        have hboth := hpasses.trans hw
        have hlength : (Match.ofAttempt a).stop - place = ((v ++ w).map (·.width)).sum := by
          rw [hstop, hboth.place]
          exact Nat.add_sub_cancel_left ..
        have hwhole' : whole.runes =
            front ++ (v ++ w) ++ Text.runes (t.drop ((Match.ofAttempt a).stop - place)) := by
          rw [hwhole, List.append_assoc, hlength, runes_drop hboth.rest]
          exact congrArg (front ++ ·) hboth.rest
        have hplace' : (Match.ofAttempt a).stop = ((front ++ (v ++ w)).map (·.width)).sum := by
          rw [List.map_append, List.sum_append, ← hplace, hstop, hboth.place]
          rfl
        exact List.forall_mem_cons.2 ⟨hoccurs, ih hwhole' hplace'⟩

/-- Every match that a pattern finds in a text is a match of its expression. -/
theorem occurs_of_mem_findAll (hr : 0 ∉ r.groups) {p : Pattern} (hp : p.automaton = r.automaton)
    {t : Text} : ∀ m ∈ p.findAll t, Occurs r t m := by
  unfold findAll
  rw [hp]
  have hwhole : t.runes = [] ++ t.runes := rfl
  exact occurs_of_mem_findAllFrom hr hwhole rfl

end LiteralAudit.Pattern
