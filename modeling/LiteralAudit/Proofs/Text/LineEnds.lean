import LiteralAudit.Text.Basic
import Mathlib

/-!
# Line ends of two kinds

`Text.crlf` puts CR LF for each LF of a text. A value read from such a text is **converted** (`Converted`)
from the value that was read from the text with LF: it has a CR before those LFs that were line ends,
while an LF that was written as an escape stands as it is.
-/

namespace LiteralAudit

namespace Text

abbrev lf : UInt8 := '\n'

abbrev cr : UInt8 := '\r'

/-- Every LF replaced by CR LF. -/
def crlf : Text → Text
  | [] => []
  | b :: rest => if b == lf then cr :: lf :: crlf rest else b :: crlf rest

@[simp] theorem crlf_nil : crlf [] = [] := rfl

theorem crlf_lineBreak (rest : Text) : crlf (lf :: rest) = cr :: lf :: crlf rest := rfl

theorem crlf_cons {b : UInt8} (h : b ≠ lf) (rest : Text) : crlf (b :: rest) = b :: crlf rest :=
  if_neg (by simpa using h)

theorem crlf_append (s t : Text) : crlf (s ++ t) = crlf s ++ crlf t := by
  induction s with
  | nil => rfl
  | cons b rest ih =>
    rw [List.cons_append, crlf, crlf, ih]
    split_ifs <;> rfl

theorem crlf_of_not_mem {t : Text} (h : lf ∉ t) : crlf t = t := by
  induction t with
  | nil => rfl
  | cons b rest ih =>
    simp only [List.mem_cons, not_or] at h
    rw [crlf_cons (Ne.symm h.1), ih h.2]

section

variable {p : UInt8 → Bool} (hcr : p cr = false) (hlf : p lf = false)

include hcr hlf

theorem any_head?_crlf (t : Text) : (crlf t).head?.any p = t.head?.any p := by
  cases t with
  | nil => rfl
  | cons b rest =>
    by_cases hb : b = lf
    · subst hb
      rw [crlf_lineBreak]
      simp [hcr, hlf]
    · rw [crlf_cons hb]
      rfl

theorem takeWhile_crlf (t : Text) : (crlf t).takeWhile p = t.takeWhile p := by
  induction t with
  | nil => rfl
  | cons b rest ih =>
    by_cases hb : b = lf
    · subst hb
      rw [crlf_lineBreak, List.takeWhile_cons_of_neg (ne_true_of_eq_false hcr),
        List.takeWhile_cons_of_neg (ne_true_of_eq_false hlf)]
    · rw [crlf_cons hb, List.takeWhile_cons, List.takeWhile_cons, ih]

theorem dropWhile_crlf (t : Text) : (crlf t).dropWhile p = crlf (t.dropWhile p) := by
  induction t with
  | nil => rfl
  | cons b rest ih =>
    by_cases hb : b = lf
    · subst hb
      rw [List.dropWhile_cons_of_neg (ne_true_of_eq_false hlf), crlf_lineBreak,
        List.dropWhile_cons_of_neg (ne_true_of_eq_false hcr)]
    · rw [crlf_cons hb, List.dropWhile_cons, List.dropWhile_cons, ih]
      split_ifs
      · rfl
      · rw [crlf_cons hb]

end

/-- Dropping up to a line end drops the CR before it. -/
theorem dropWhile_ne_lf_crlf (t : Text) :
    (crlf t).dropWhile (· != lf) = crlf (t.dropWhile (· != lf)) ∨
      crlf (t.dropWhile (· != lf)) = cr :: (crlf t).dropWhile (· != lf) := by
  induction t with
  | nil => exact .inl rfl
  | cons b rest ih =>
    by_cases hb : b = lf
    · subst hb
      exact .inr rfl
    · have hdrop : (b != lf) = true := by simpa using hb
      rw [crlf_cons hb, List.dropWhile_cons, List.dropWhile_cons, if_pos hdrop, if_pos hdrop]
      exact ih

/-- A front without line ends is found in both texts, with the same left. -/
theorem dropFront?_crlf {front : Text} (hcr : cr ∉ front) (hlf : lf ∉ front) (t : Text) :
    dropFront? front (crlf t) = (dropFront? front t).map crlf := by
  induction front generalizing t with
  | nil => simp [dropFront?]
  | cons a front ih =>
    simp only [List.mem_cons, not_or] at hcr hlf
    cases t with
    | nil => rfl
    | cons b rest =>
      by_cases hb : b = lf
      · subst hb
        have hne : (a == cr) = false := by simpa using fun h => hcr.1 h.symm
        have hne' : (a == lf) = false := by simpa using fun h => hlf.1 h.symm
        rw [crlf_lineBreak, dropFront?, dropFront?, hne, hne']
        rfl
      · rw [crlf_cons hb, dropFront?, dropFront?]
        split_ifs
        · exact ih hcr.2 hlf.2 rest
        · rfl

theorem startsWith_crlf {front : Text} (hcr : cr ∉ front) (hlf : lf ∉ front) (t : Text) :
    startsWith (crlf t) front = startsWith t front := by
  rw [startsWith, startsWith, dropFront?_crlf hcr hlf]
  exact Option.isSome_map

theorem eq_append_of_dropFront? {front t rest : Text} (h : dropFront? front t = some rest) :
    t = front ++ rest := by
  induction front generalizing t with
  | nil =>
    cases h
    rfl
  | cons a front ih =>
    cases t with
    | nil => cases h
    | cons b t =>
      rw [dropFront?] at h
      split_ifs at h with heq
      rw [eq_of_beq heq, List.cons_append, ← ih h]

theorem drop_crlf {front t : Text} (hlf : lf ∉ front) (h : startsWith t front = true) :
    (crlf t).drop front.length = crlf (t.drop front.length) := by
  obtain ⟨rest, hrest⟩ := Option.isSome_iff_exists.1 h
  rw [eq_append_of_dropFront? hrest, crlf_append, crlf_of_not_mem hlf, List.drop_left, List.drop_left]

/-- Every CR LF replaced by LF. -/
def toLf (t : Text) : Text := replaceAll "\r\n" "\n" t

theorem toLf_lineBreak (rest : Text) : toLf (cr :: lf :: rest) = lf :: toLf rest := rfl

theorem toLf_cons {b : UInt8} {rest : Text} (h : b = cr → rest.head? ≠ some lf) :
    toLf (b :: rest) = b :: toLf rest := by
  refine if_neg fun hstarts => ?_
  obtain ⟨after, hafter⟩ := Option.isSome_iff_exists.1 hstarts
  obtain ⟨hb, hrest⟩ := List.cons.inj (eq_append_of_dropFront? hafter)
  exact h hb (by rw [hrest]; rfl)

theorem toLf_lf (rest : Text) : toLf (lf :: rest) = lf :: toLf rest :=
  toLf_cons fun h => absurd h (by decide)

end Text

/-- The second text is the first one with a CR put before some of its LFs. -/
inductive Converted : Text → Text → Prop
  | nil : Converted [] []
  | cons (b : UInt8) {t t' : Text} : Converted t t' → Converted (b :: t) (b :: t')
  | lineBreak {t t' : Text} : Converted t t' → Converted (Text.lf :: t) (Text.cr :: Text.lf :: t')

namespace Converted

open Text (cr lf)

theorem refl (t : Text) : Converted t t := by
  induction t with
  | nil => exact .nil
  | cons b rest ih => exact .cons b ih

theorem append {s s' t t' : Text} (hs : Converted s s') (ht : Converted t t') :
    Converted (s ++ t) (s' ++ t') := by
  induction hs with
  | nil => exact ht
  | cons b _ ih => exact .cons b ih
  | lineBreak _ ih => exact .lineBreak ih

/-- Converting a text keeps the number of its lines. -/
theorem count_eq {t t' : Text} (h : Converted t t') : t'.count Text.lf = t.count Text.lf := by
  induction h with
  | nil => rfl
  | cons b _ ih => rw [List.count_cons, List.count_cons, ih]
  | lineBreak _ ih =>
    rw [List.count_cons_of_ne (by decide), List.count_cons_self, List.count_cons_self, ih]

/-- Where no CR stands before a CR LF, the texts are the same once each CR LF is replaced by LF. -/
theorem toLf_eq {t t' : Text} (h : Converted t t') (hplain : ¬ [cr, cr, lf] <:+: t') :
    t'.toLf = t.toLf := by
  induction h with
  | nil => rfl
  | @cons b t t' hrest ih =>
    have htail := ih fun hin => hplain (hin.trans (List.suffix_cons b t').isInfix)
    by_cases hb : b = cr
    · subst hb
      cases hrest with
      | nil => rfl
      | @cons c s s' hrest =>
        by_cases hc : c = lf
        · subst hc
          rw [Text.toLf_lf, Text.toLf_lf] at htail
          rw [Text.toLf_lineBreak, Text.toLf_lineBreak, htail]
        · have hhead (after : Text) : (c :: after).head? ≠ some lf := by simpa using hc
          rw [Text.toLf_cons fun _ => hhead s', Text.toLf_cons fun _ => hhead s, htail]
      | @lineBreak s s' hrest => exact absurd ⟨[], s', rfl⟩ hplain
    · rw [Text.toLf_cons fun h => absurd h hb, Text.toLf_cons fun h => absurd h hb, htail]
  | @lineBreak t t' hrest ih =>
    have htail := ih fun hin =>
      hplain (hin.trans ((List.suffix_cons lf t').trans (List.suffix_cons cr _)).isInfix)
    rw [Text.toLf_lineBreak, Text.toLf_lf, htail]

end Converted

end LiteralAudit
