import LiteralAudit.Proofs.Regex.Leads
import LiteralAudit.Proofs.Text.Utf8

/-!
# Words of an expression

Of its conditions and groups apart, an expression is a language: a set of words (`Regex.Spells`). In an
ASCII text an expression leads past one of its words only (`Leads.exists_spells`), and one without
conditions and groups leads past every word of its own (`Spells.leads`). So what such an expression can
find in a text is a matter of bytes, with no regard to runes and marks. An expression that needs a
character which the text has not spells none of its parts (`Spells.readable`).
-/

namespace LiteralAudit

namespace Spot.Passes

variable {x y : Spot} {v w : List Rune}

/-- Between two spots stands one behind any part of what they have between them. -/
theorem split (h : x.Passes (v ++ w) y) : ∃ z, x.Passes v z ∧ z.Passes w y := by
  refine ⟨⟨x.place + (v.map (·.width)).sum, (v.getLast?.map (·.char)).or x.before, w ++ y.rest⟩,
    ⟨?_, rfl, rfl⟩, rfl, ?_, ?_⟩
  · rw [h.rest, List.append_assoc]
  · rw [h.place, List.map_append, List.sum_append, Nat.add_assoc]
  · rw [h.before, List.getLast?_append]
    cases w.getLast? <;> simp

end Spot.Passes

namespace Regex

/-! ## Words -/

/-- The words of an expression, its conditions and groups apart. -/
def Spells : Regex → Text → Prop
  | .empty, w | .place _, w => w = []
  | .chars set, w => ∃ b : UInt8, w = [b] ∧ set.mem b.toNat = true
  | .group _ body, w => body.Spells w
  | .seq a b, w => ∃ u v, w = u ++ v ∧ a.Spells u ∧ b.Spells v
  | .alt a b, w => a.Spells w ∨ b.Spells w
  | .rep least most _ body, w =>
    ∃ ws : List Text, w = ws.flatten ∧ least ≤ ws.length ∧ (∀ k ∈ most, ws.length ≤ max least k) ∧
      ∀ v ∈ ws, body.Spells v

/-- Whether an expression has neither conditions nor groups. -/
def plain : Regex → Bool
  | .empty | .chars _ => true
  | .place _ | .group _ _ => false
  | .seq a b | .alt a b => a.plain && b.plain
  | .rep _ _ _ body => body.plain

/-- In an ASCII text an expression leads past one of its words. -/
theorem Leads.exists_spells {r : Regex} {s u : Trail} (h : r.Leads s u) {t : Text} (ht : t.IsAscii)
    (hs : s.spot.rest = t.map Rune.ofAscii) :
    ∃ w rest, t = w ++ rest ∧ r.Spells w ∧ s.spot.Passes (w.map Rune.ofAscii) u.spot ∧
      u.spot.rest = rest.map Rune.ofAscii := by
  induction r generalizing s u t with
  | empty =>
    obtain rfl : u = s := h
    exact ⟨[], t, rfl, rfl, .refl _, hs⟩
  | chars set =>
    obtain ⟨r, rest, hrest, hmem, rfl⟩ := h
    rw [hs] at hrest
    cases t with
    | nil => cases hrest
    | cons b t =>
      obtain ⟨rfl, rfl⟩ := List.cons.inj hrest
      rw [Rune.code_ofAscii (ht b List.mem_cons_self)] at hmem
      exact ⟨[b], t, rfl, ⟨b, rfl, hmem⟩, .past hs, rfl⟩
  | place p =>
    obtain ⟨-, rfl⟩ := h
    exact ⟨[], t, rfl, rfl, .refl _, hs⟩
  | group n body ih =>
    obtain ⟨v, hv, rfl⟩ := h
    exact ih hv ht hs
  | seq a b iha ihb =>
    obtain ⟨v, hsv, hvu⟩ := h
    obtain ⟨w, rest, rfl, hw, hpasses, hrest⟩ := iha hsv ht hs
    obtain ⟨w', rest', rfl, hw', hpasses', hrest'⟩ :=
      ihb hvu (fun b hb => ht b (List.mem_append_right _ hb)) hrest
    refine ⟨w ++ w', rest', (List.append_assoc ..).symm, ⟨w, w', rfl, hw, hw'⟩, ?_, hrest'⟩
    rw [List.map_append]
    exact hpasses.trans hpasses'
  | alt a b iha ihb =>
    obtain h | h := h
    · obtain ⟨w, rest, heq, hw, hpasses⟩ := iha h ht hs
      exact ⟨w, rest, heq, .inl hw, hpasses⟩
    · obtain ⟨w, rest, heq, hw, hpasses⟩ := ihb h ht hs
      exact ⟨w, rest, heq, .inr hw, hpasses⟩
  | rep least most greedy body ih =>
    obtain ⟨n, hleast, hmost, hturns⟩ := h
    have hwords : ∃ (ws : List Text) (rest : Text), t = ws.flatten ++ rest ∧ ws.length = n ∧ (∀ v ∈ ws, body.Spells v) ∧
        s.spot.Passes (ws.flatten.map Rune.ofAscii) u.spot ∧ u.spot.rest = rest.map Rune.ofAscii := by
      clear hleast hmost
      induction n generalizing s t with
      | zero =>
        obtain rfl : s = u := hturns
        exact ⟨[], t, rfl, rfl, List.forall_mem_nil _, .refl _, hs⟩
      | succ n ihn =>
        obtain ⟨v, hsv, hvu⟩ := hturns
        obtain ⟨w, rest, rfl, hw, hpasses, hrest⟩ := ih hsv ht hs
        obtain ⟨ws, rest', rfl, hlength, hws, hpasses', hrest'⟩ :=
          ihn (fun b hb => ht b (List.mem_append_right _ hb)) hrest hvu
        refine ⟨w :: ws, rest', ?_, by rw [List.length_cons, hlength],
          List.forall_mem_cons.2 ⟨hw, hws⟩, ?_, hrest'⟩
        · rw [List.flatten_cons, List.append_assoc]
        · rw [List.flatten_cons, List.map_append]
          exact hpasses.trans hpasses'
    obtain ⟨ws, rest, heq, rfl, hws, hpasses, hrest⟩ := hwords
    exact ⟨ws.flatten, rest, heq, ⟨ws, rfl, hleast, hmost, hws⟩, hpasses, hrest⟩

/-- A plain expression leads past each of its words, and leaves no mark. -/
theorem Spells.leads {r : Regex} (hr : r.plain = true) {w : Text} (h : r.Spells w) (hw : w.IsAscii)
    {s : Trail} {y : Spot} (hpasses : s.spot.Passes (w.map Rune.ofAscii) y) :
    r.Leads s ⟨y, s.marks⟩ := by
  induction r generalizing s y w with
  | empty =>
    obtain rfl : w = [] := h
    rw [hpasses.eq_of_nil]
    rfl
  | chars set =>
    obtain ⟨b, rfl, hmem⟩ := h
    have hpast : s.past (Rune.ofAscii b) y.rest = ⟨y, s.marks⟩ := by
      rw [Trail.past, (hpasses.of_cons hpasses.rest).eq_of_nil]
      rfl
    refine ⟨_, _, hpasses.rest, ?_, hpast.symm⟩
    rwa [Rune.code_ofAscii (hw b List.mem_cons_self)]
  | place p => cases hr
  | group n body => cases hr
  | seq a b iha ihb =>
    obtain ⟨ha, hb⟩ := Bool.and_eq_true_iff.1 hr
    obtain ⟨v, w, rfl, hv, hw'⟩ := h
    obtain ⟨hvascii, hwascii⟩ := List.forall_mem_append.1 hw
    rw [List.map_append] at hpasses
    obtain ⟨z, hz, hy⟩ := hpasses.split
    exact ⟨_, iha ha hv hvascii hz, ihb hb hw' hwascii hy⟩
  | alt a b iha ihb =>
    obtain ⟨ha, hb⟩ := Bool.and_eq_true_iff.1 hr
    obtain h | h := h
    · exact .inl (iha ha h hw hpasses)
    · exact .inr (ihb hb h hw hpasses)
  | rep least most greedy body ih =>
    obtain ⟨ws, rfl, hleast, hmost, hws⟩ := h
    refine ⟨ws.length, hleast, hmost, ?_⟩
    clear hleast hmost
    induction ws generalizing s with
    | nil =>
      rw [hpasses.eq_of_nil]
      rfl
    | cons v ws ihws =>
      obtain ⟨hv, hws⟩ := List.forall_mem_cons.1 hws
      rw [List.flatten_cons] at hw hpasses
      obtain ⟨hvascii, hwascii⟩ := List.forall_mem_append.1 hw
      rw [List.map_append] at hpasses
      obtain ⟨z, hz, hy⟩ := hpasses.split
      exact ⟨_, ih hr hv hvascii hz, ihws hwascii hy hws⟩

/-! ## Words over a few characters -/

/-- Whether some word of an expression might consist of the given characters only. -/
def readable (codes : List Nat) : Regex → Bool
  | .empty | .place _ => true
  | .chars set => codes.any set.mem
  | .group _ body => body.readable codes
  | .seq a b => a.readable codes && b.readable codes
  | .alt a b => a.readable codes || b.readable codes
  | .rep least _ _ body => least == 0 || body.readable codes

theorem Spells.readable {codes : List Nat} {r : Regex} {w : Text} (h : r.Spells w)
    (hw : ∀ b ∈ w, b.toNat ∈ codes) : r.readable codes = true := by
  induction r generalizing w with
  | empty | place p => rfl
  | chars set =>
    obtain ⟨b, rfl, hmem⟩ := h
    exact List.any_eq_true.2 ⟨_, hw b List.mem_cons_self, hmem⟩
  | group n body ih => exact ih h hw
  | seq a b iha ihb =>
    obtain ⟨u, v, rfl, hu, hv⟩ := h
    obtain ⟨hucodes, hvcodes⟩ := List.forall_mem_append.1 hw
    exact Bool.and_eq_true_iff.2 ⟨iha hu hucodes, ihb hv hvcodes⟩
  | alt a b iha ihb =>
    obtain h | h := h
    · exact Bool.or_eq_true_iff.2 (.inl (iha h hw))
    · exact Bool.or_eq_true_iff.2 (.inr (ihb h hw))
  | rep least most greedy body ih =>
    obtain ⟨ws, rfl, hleast, -, hws⟩ := h
    cases ws with
    | nil =>
      obtain rfl : least = 0 := Nat.le_zero.1 hleast
      rfl
    | cons v ws =>
      rw [List.flatten_cons] at hw
      exact Bool.or_eq_true_iff.2
        (.inr (ih (hws v List.mem_cons_self) (List.forall_mem_append.1 hw).1))

end Regex

end LiteralAudit
