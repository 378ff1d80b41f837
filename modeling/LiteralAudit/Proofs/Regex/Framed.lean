import LiteralAudit.Library.Basic
import LiteralAudit.Proofs.Regex.Search
import LiteralAudit.Proofs.Regex.Words

/-!
# Words between conditions

Many rules look for a word between two conditions on places, and remember it as the first group
(`Regex.framed`). In an ASCII text such a pattern finds nothing when no word stands so (`collect_eq_nil`),
and it reports the whole text when the text stands so and no other part of it does
(`collect_eq_whole`).
-/

namespace LiteralAudit

/-- A word between two conditions on places, remembered as the first group. -/
def Regex.framed (p : Place) (body : Regex) (q : Place) : Regex :=
  .seq (.place p) (.seq (.group 1 body) (.place q))

theorem map_char_getLast? (t : Text) :
    (t.map Rune.ofAscii).getLast?.map (·.char) = t.getLast?.map charOf := by
  rw [List.getLast?_map, Option.map_map]
  rfl

theorem map_char_head? (t : Text) : (t.map Rune.ofAscii).head?.map (·.char) = t.head?.map charOf := by
  rw [List.head?_map, Option.map_map]
  rfl

/-- A word stands between two parts of a text as a framed expression demands it. -/
structure Framed (p : Place) (body : Regex) (q : Place) (v w z : Text) : Prop where
  spells : body.Spells w
  front : p.holds (v.getLast?.map charOf) ((w ++ z).head?.map charOf) = true
  back : q.holds ((v ++ w).getLast?.map charOf) (z.head?.map charOf) = true

theorem Regex.groups_of_plain {r : Regex} (h : r.plain = true) : r.groups = [] := by
  induction r with
  | empty | chars set => rfl
  | place p => cases h
  | group n body => cases h
  | seq a b iha ihb | alt a b iha ihb =>
    obtain ⟨ha, hb⟩ := Bool.and_eq_true_iff.1 h
    rw [groups, iha ha, ihb hb]
    rfl
  | rep least most greedy body ih => exact ih h

namespace Pattern

open Regex

variable {p q : Place} {body : Regex} {t : Text}

/-- Wherever a framed expression leads in an ASCII text, it leads past a word that stands there. -/
theorem exists_framed (ht : t.IsAscii) {x : Spot} {u : Trail} {front : List Rune}
    (hfront : (spotOf 0 none 0 t).Passes front x) (h : (framed p body q).Leads (begun x) u) :
    ∃ v w z, t = v ++ w ++ z ∧ Framed p body q v w z ∧ x.place = v.length ∧
      u.spot.place = (v ++ w).length ∧ u.spot.rest = z.map Rune.ofAscii := by
  obtain ⟨-, ⟨hp, rfl⟩, -, ⟨s, hbody, rfl⟩, hq, rfl⟩ := h
  have hrunes : t.map Rune.ofAscii = front ++ x.rest := ht.runes_eq.symm.trans hfront.rest
  obtain ⟨v, after, rfl, rfl, hafter⟩ := List.map_eq_append_iff.1 hrunes
  obtain ⟨w, z, rfl, hw, hpasses, hrest⟩ :=
    hbody.exists_spells (List.forall_mem_append.1 ht).2 hafter.symm
  have hbefore : x.before = v.getLast?.map charOf := by
    rw [hfront.before, map_char_getLast?, spotOf, Option.or_none]
  have hback : s.spot.before = (v ++ w).getLast?.map charOf := by
    rw [hpasses.before, map_char_getLast?, List.getLast?_append, Option.map_or]
    exact congrArg _ hbefore
  refine ⟨v, w, z, (List.append_assoc ..).symm, ⟨hw, ?_, ?_⟩, ?_, ?_, hrest⟩
  · rw [← hbefore, ← map_char_head?, hafter]
    exact hp
  · rw [← hback, ← map_char_head?, ← hrest]
    exact hq
  · rw [hfront.place, sum_width_ofAscii]
    exact Nat.zero_add _
  · show s.spot.place = _
    rw [hpasses.place, sum_width_ofAscii, List.length_append]
    show x.place + _ = _
    rw [hfront.place, sum_width_ofAscii]
    exact congrArg (· + w.length) (Nat.zero_add _)

/-- Where a framed expression has led, its group is all that it has led past. -/
theorem marks_framed (hbody : body.plain = true) {x : Spot} {u : Trail}
    (h : (framed p body q).Leads (begun x) u) :
    u.marks 2 = some x.place ∧ u.marks 3 = some u.spot.place := by
  obtain ⟨-, ⟨-, rfl⟩, -, ⟨s, hs, rfl⟩, -, rfl⟩ := h
  refine ⟨?_, rfl⟩
  show s.marks 2 = _
  rw [hs.marks_eq (by rw [groups_of_plain hbody]; exact List.not_mem_nil)]
  rfl

/-- A framed expression leads through a text that stands as a whole. -/
theorem leads_of_framed (hbody : body.plain = true) (ht : t.IsAscii) (h : Framed p body q [] t []) :
    ∃ u, (framed p body q).Leads (begun (spotOf 0 none 0 t)) u := by
  obtain ⟨hspells, hfront, hback⟩ := h
  have hrunes : (spotOf 0 none 0 t).rest = t.map Rune.ofAscii := ht.runes_eq
  have hpasses : (spotOf 0 none 0 t).Passes (t.map Rune.ofAscii) ⟨t.length, t.getLast?.map charOf, []⟩ := by
    refine ⟨by rw [hrunes, List.append_nil], ?_, ?_⟩
    · rw [sum_width_ofAscii]
      exact (Nat.zero_add _).symm
    · rw [map_char_getLast?]
      exact (Option.or_none ..).symm
  refine ⟨_, _, ⟨?_, rfl⟩, _, ⟨_, hspells.leads hbody ht hpasses, rfl⟩, ?_, rfl⟩
  · rw [List.append_nil, ← map_char_head?, ← hrunes] at hfront
    exact hfront
  · exact hback

theorem zero_notMem_groups (hbody : body.plain = true) : 0 ∉ (framed p body q).groups := by
  show 0 ∉ [] ++ ((1 :: body.groups) ++ [])
  rw [groups_of_plain hbody]
  decide

variable {pattern : Pattern}

/-- Nothing is found where no search succeeds. -/
theorem findAll_eq_nil {r : Regex} (hpattern : pattern.automaton = r.automaton)
    (h : ∀ v x u, (spotOf 0 none 0 t).Passes v x → ¬ r.Leads (begun x) u) : pattern.findAll t = [] := by
  unfold findAll
  rw [hpattern, findAllFrom]
  cases hfound : searchFrom r.automaton 0 none t with
  | none => rfl
  | some a =>
    obtain ⟨x, v, u, hv, hlead, -⟩ := searchFrom_sound hfound
    exact absurd hlead (h v x u hv)

/-- Where the whole text stands and nothing else does, one match is found. -/
theorem findAll_eq_whole (hpattern : pattern.automaton = (framed p body q).automaton)
    (hbody : body.plain = true) (ht : t.IsAscii) (hempty : ¬ body.Spells [])
    (hstands : Framed p body q [] t [])
    (hwhole : ∀ v w z, t = v ++ w ++ z → Framed p body q v w z → v = [] ∧ z = []) :
    ∃ m, pattern.findAll t = [m] ∧ m.group? t 1 = some t := by
  obtain ⟨_, hstart⟩ := leads_of_framed hbody ht hstands
  have hhere : (spotOf 0 none 0 t).Passes [] (begun (spotOf 0 none 0 t)).spot := .refl _
  obtain ⟨a, ha⟩ := Option.isSome_iff_exists.1 (searchFrom_complete hhere hstart)
  obtain ⟨x, front, u, hfront, hlead, hends⟩ := searchFrom_sound ha
  obtain ⟨v, w, z, rfl, hframed, hplace, hstop, -⟩ := exists_framed ht hfront hlead
  obtain ⟨rfl, rfl⟩ := hwhole v w z rfl hframed
  have hne : w ≠ [] := fun hw => hempty (hw ▸ hframed.spells)
  rw [List.nil_append] at hstop
  rw [List.nil_append, List.append_nil] at ha ht ⊢
  obtain ⟨-, hmstop⟩ := ofAttempt_of_ends (zero_notMem_groups hbody) hlead hends
  rw [hstop] at hmstop
  -- Behind the match there is no text left, and the body is never empty.
  have hafter : ∀ place before last fuel,
      findAllFrom (framed p body q).automaton (fuel + 1) place before last [] = [] := by
    intro place before last fuel
    rw [findAllFrom]
    cases hfound : searchFrom (framed p body q).automaton place before [] with
    | none => rfl
    | some a =>
      obtain ⟨x, v, u, hv, ⟨-, ⟨-, rfl⟩, -, ⟨s, hs, -⟩, -⟩, -⟩ := searchFrom_sound hfound
      have hx : x.rest = [] := (List.append_eq_nil_iff.1 hv.rest.symm).2
      obtain ⟨w, rest, hw, hspells, -⟩ := hs.exists_spells (t := []) (List.forall_mem_nil _) hx
      exact absurd ((List.append_eq_nil_iff.1 hw.symm).1 ▸ hspells) hempty
  refine ⟨.ofAttempt a, ?_, ?_⟩
  · unfold findAll
    rw [hpattern, findAllFrom, ha]
    dsimp only
    rw [hmstop, if_neg (by simpa using hne), Nat.sub_zero, List.drop_length, hafter]
  · obtain ⟨hopen, hclose⟩ := marks_framed hbody hlead
    have hmarks : a.mark? 2 = some 0 ∧ a.mark? 3 = some w.length := by
      rw [hends, ← hstop]
      refine ⟨?_, hclose⟩
      exact hopen.trans (congrArg some hplace)
    simp only [Match.group?, Match.ofAttempt, hmarks.1, hmarks.2]
    simp [slice]

end Pattern

namespace Rule

open Pattern

variable {p q : Place} {body : Regex} {t : Text} {pattern : Pattern}

/-- Where no word stands as a framed expression demands it, nothing is reported. -/
theorem collect_eq_nil (hpattern : pattern.automaton = (Regex.framed p body q).automaton)
    (ht : t.IsAscii) (h : ∀ v w z, t = v ++ w ++ z → ¬ Framed p body q v w z) :
    collect pattern t = [] := by
  have hnone : pattern.findAll t = [] := by
    refine findAll_eq_nil hpattern fun front x u hfront hlead => ?_
    obtain ⟨v, w, z, heq, hframed, -⟩ := exists_framed ht hfront hlead
    exact h v w z heq hframed
  rw [collect, hnone]
  rfl

/-- Where the whole text stands as a framed expression demands it and no other part does, the text is
reported. -/
theorem collect_eq_whole (hpattern : pattern.automaton = (Regex.framed p body q).automaton)
    (hbody : body.plain = true) (ht : t.IsAscii) (hempty : ¬ body.Spells [])
    (hstands : Framed p body q [] t [])
    (hwhole : ∀ v w z, t = v ++ w ++ z → Framed p body q v w z → v = [] ∧ z = []) :
    collect pattern t = [t] := by
  obtain ⟨m, hfound, hgroup⟩ := findAll_eq_whole hpattern hbody ht hempty hstands hwhole
  have hne : t.isEmpty = false := by
    rw [List.isEmpty_eq_false_iff]
    rintro rfl
    exact hempty hstands.spells
  rw [collect, hfound, List.map_singleton, hgroup]
  dsimp only
  rw [hne, if_neg Bool.false_ne_true]

/-- An expression that needs a character which an ASCII text has not reports nothing. -/
theorem collect_of_unreadable {r : Regex} (hpattern : pattern.automaton = r.automaton) (ht : t.IsAscii)
    {codes : List Nat} (hcodes : ∀ b ∈ t, b.toNat ∈ codes) (hr : r.readable codes = false) :
    collect pattern t = [] := by
  have hnone : pattern.findAll t = [] := by
    refine findAll_eq_nil hpattern fun front x u hfront hlead => ?_
    have hrunes : t.map Rune.ofAscii = front ++ x.rest := ht.runes_eq.symm.trans hfront.rest
    obtain ⟨v, after, rfl, -, hafter⟩ := List.map_eq_append_iff.1 hrunes
    obtain ⟨w, z, rfl, hw, -⟩ := hlead.exists_spells (List.forall_mem_append.1 ht).2 hafter.symm
    have hreadable := hw.readable fun b hb =>
      hcodes b (List.mem_append_right _ (List.mem_append_left _ hb))
    rw [hr] at hreadable
    cases hreadable
  rw [collect, hnone]
  rfl

end Rule

end LiteralAudit
