import LiteralAudit.Proofs.Literal.Go.ScannedStrings
import LiteralAudit.Proofs.Text.LineEnds

/-!
# The cells of a source

The scanner reads a source as cells, each of which knows how many bytes stand before it. A part of the
cells of a text in UTF-8 is a part of the text (`spelling_of_cells`), and the lines that the scanner
counts are those that LF ends (`length_takeWhile_lineStarts`): up to any place inside the text, one line
more than there are LFs before the place.
-/

namespace LiteralAudit.Go

open Text (lf)

/-- The cells of a text. -/
def cellsOf (t : Text) : List Cell := cellsFrom 0 t.runes

/-! ## Cells as bytes -/

theorem spelling_cellsFrom {t : Text} (h : t.isUtf8 = true) (k : Nat) :
    spelling (cellsFrom k t.runes) = t := by
  induction t using Text.rune_induction generalizing k with
  | nil => rfl
  | spelled c b tail rest hspelled ih =>
    rw [Text.isUtf8, Text.runes_spelled hspelled, List.all_cons, Bool.and_eq_true] at h
    rw [Text.runes_spelled hspelled, cellsFrom, spelling_cons, hspelled.ofChar_eq, ih h.2]
  | stray b rest hstray ih =>
    rw [Text.isUtf8, Text.runes_stray hstray] at h
    cases h

/-- The cells of a text in UTF-8 are spelled as the text. -/
theorem spelling_cellsOf {t : Text} (h : t.isUtf8 = true) : spelling (cellsOf t) = t :=
  spelling_cellsFrom h 0

theorem offsetOf_append_from {t : Text} (h : t.isUtf8 = true) {k : Nat} {front rest : List Cell}
    (hcells : cellsFrom k t.runes = front ++ rest) :
    offsetOf (k + t.length) rest = k + (spelling front).length := by
  induction t using Text.rune_induction generalizing k front with
  | nil =>
    obtain ⟨rfl, rfl⟩ := List.append_eq_nil_iff.1 hcells.symm
    rfl
  | spelled c b tail rest' hspelled ih =>
    rw [Text.isUtf8, Text.runes_spelled hspelled, List.all_cons, Bool.and_eq_true] at h
    rw [Text.runes_spelled hspelled, cellsFrom] at hcells
    cases front with
    | nil =>
      obtain rfl : _ = rest := hcells
      rfl
    | cons first front =>
      obtain ⟨rfl, hfront⟩ := List.cons.inj hcells
      have hrest := ih h.2 hfront
      rw [spelling_cons, hspelled.ofChar_eq, List.length_append, List.length_append,
        ← Nat.add_assoc, ← Nat.add_assoc]
      exact hrest
  | stray b rest hstray ih =>
    rw [Text.isUtf8, Text.runes_stray hstray] at h
    cases h

/-- How many bytes stand before what is left of the cells of a text in UTF-8. -/
theorem offsetOf_append {t : Text} (h : t.isUtf8 = true) {front rest : List Cell}
    (hcells : cellsOf t = front ++ rest) : offsetOf t.length rest = (spelling front).length := by
  have hfrom := offsetOf_append_from h hcells
  rwa [Nat.zero_add, Nat.zero_add] at hfrom

/-! ## Lines -/

theorem lf_notMem_ofChar {c : Char} (h : c ≠ '\n') : lf ∉ Text.ofChar c :=
  fun hmem => ne_of_mem_ofChar (by decide) h hmem rfl

/-- The cells of line breaks before a place are the LFs before it. -/
theorem countP_lineBreaks {t : Text} (k o : Nat) :
    (cellsFrom k t.runes).countP (fun c => c.char == '\n' && decide (c.offset < o)) =
      (t.take (o - k)).count lf := by
  induction t using Text.rune_induction generalizing k with
  | nil =>
    rw [List.take_nil]
    rfl
  | spelled c b tail rest hspelled ih =>
    rw [Text.runes_spelled hspelled, cellsFrom, List.countP_cons, ih]
    have hbytes := hspelled.ofChar_eq
    by_cases hc : c = '\n'
    · subst hc
      obtain ⟨rfl, rfl⟩ : lf = b ∧ [] = tail := List.cons.inj hbytes
      rw [List.length_nil, Nat.zero_add]
      by_cases hk : k < o
      · rw [show o - k = o - (k + 1) + 1 by omega]
        simp [hk]
      · rw [show o - k = 0 by omega, show o - (k + 1) = 0 by omega]
        simp [hk]
    · have hnone : ((b :: tail).take (o - k)).count lf = 0 :=
        List.count_eq_zero.2 fun hmem => lf_notMem_ofChar hc (hbytes ▸ List.mem_of_mem_take hmem)
      rw [List.take_append, List.count_append, hnone, Nat.zero_add, Nat.sub_sub]
      simp [hc]
  | stray b rest hstray ih =>
    have hb : b ≠ lf := by
      rintro rfl
      cases hstray
    rw [Text.runes_stray hstray, cellsFrom, List.countP_cons, ih]
    cases hk : o - k with
    | zero =>
      rw [show o - (k + Rune.stray.width) = 0 by omega]
      rfl
    | succ n =>
      rw [List.take_succ_cons, List.count_cons_of_ne hb, show o - (k + Rune.stray.width) = n from ?_]
      · rfl
      · show o - (k + 1) = n
        omega

theorem le_offset_of_mem {k : Nat} {rs : List Rune} {c : Cell} (h : c ∈ cellsFrom k rs) : k ≤ c.offset := by
  induction rs generalizing k with
  | nil => cases h
  | cons r rs ih =>
    obtain rfl | h := List.mem_cons.1 h
    · exact Nat.le_refl _
    · exact (Nat.le_add_right ..).trans (ih h)

theorem length_takeWhile_lineBreaks {size o : Nat} (ho : o < size) (k : Nat) (rs : List Rune) :
    (((cellsFrom k rs).filterMap fun c =>
        if c.char == '\n' && c.offset + 1 < size then some (c.offset + 1) else none).takeWhile
          (· ≤ o)).length =
      (cellsFrom k rs).countP fun c => c.char == '\n' && decide (c.offset < o) := by
  induction rs generalizing k with
  | nil => rfl
  | cons r rs ih =>
    rw [cellsFrom, List.countP_cons, List.filterMap_cons]
    cases hc : r.char == '\n' with
    | false =>
      simp only [Bool.false_and, Bool.false_eq_true, if_false, Nat.add_zero]
      exact ih _
    | true =>
      by_cases hsize : k + 1 < size
      · by_cases hk : k < o
        · simp only [hsize, hk, decide_true, Bool.and_true, if_true]
          rw [List.takeWhile_cons, if_pos (by simpa using hk), List.length_cons, ih]
        · -- All that follows stands behind the place, too.
          have hrest : (cellsFrom (k + r.width) rs).countP
              (fun c => c.char == '\n' && decide (c.offset < o)) = 0 := by
            rw [List.countP_eq_zero]
            intro c hmem
            have hle := le_offset_of_mem hmem
            simp only [Bool.and_eq_true, decide_eq_true_eq, not_and]
            omega
          simp only [hsize, hk, hrest, decide_true, decide_false, Bool.and_true, Bool.and_false, if_true]
          rw [List.takeWhile_cons, if_neg (by simpa using hk)]
          rfl
      · have hk : ¬ k < o := by omega
        simp only [hsize, hk, decide_false, Bool.and_false, Bool.false_eq_true, if_false, Nat.add_zero]
        exact ih _

/-- Up to a place inside a text there is one line more than there are LFs before the place. -/
theorem length_takeWhile_lineStarts {t : Text} {o : Nat} (ho : o < t.length) :
    ((lineStartsOf t.length (cellsOf t)).takeWhile (· ≤ o)).length = 1 + (t.take o).count lf := by
  have hbreaks := length_takeWhile_lineBreaks ho 0 t.runes
  rw [countP_lineBreaks, Nat.sub_zero] at hbreaks
  rw [lineStartsOf, List.takeWhile_cons, if_pos (by simp), List.length_cons, Nat.add_comm]
  exact congrArg _ hbreaks

end LiteralAudit.Go
