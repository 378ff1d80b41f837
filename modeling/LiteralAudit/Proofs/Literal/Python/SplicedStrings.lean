import LiteralAudit.Proofs.Literal.Python.Lexer
import LiteralAudit.Proofs.Text.LineEnds
import Mathlib

/-!
# Strings over several lines, with line ends of two kinds

Before a line end, a backslash takes an LF, and of CR LF only the CR. So a string of one line that is
continued behind a backslash is **cut** at a CR LF (`stringBody?_crlf_cut`), and in triple quotes the line
end gets into the value. A string without such a **splice** has the same value, converted, and so has a
raw one in triple quotes, which keeps what is written (`stringBody?_crlf`).
-/

namespace LiteralAudit.Python

open Text (cr lf crlf)

/-- The line ends directly behind a backslash, in what follows the opening quotes of a string. -/
def splices (triple : Bool) (quote : UInt8) : Text → Nat
  | [] => 0
  | b :: rest =>
    if b == quote && !triple then 0
    else if b == quote && Text.startsWith rest [quote, quote] then 0
    else if b == lf then if triple then splices triple quote rest else 0
    else if b == '\\' then
      match rest with
      | [] => 0
      | next :: rest => if next == lf then splices triple quote rest + 1 else splices triple quote rest
    else splices triple quote rest

/-- Of two values in reverse, the second is the first one converted, or has `n` more line ends. -/
structure Lag (n : Nat) (done done' : Text) : Prop where
  count_eq : done'.count lf = done.count lf + n
  converted : n = 0 → Converted done.reverse done'.reverse

namespace Lag

variable {n : Nat} {done done' : Text}

theorem nil : Lag 0 [] [] := ⟨rfl, fun _ => .nil⟩

theorem converted_iff (h : Lag n done done') : n = 0 ↔ Converted done.reverse done'.reverse := by
  refine ⟨h.converted, fun hconverted => ?_⟩
  have hcount := hconverted.count_eq
  rw [List.count_reverse, List.count_reverse, h.count_eq] at hcount
  omega

theorem append (h : Lag n done done') (part : Text) : Lag n (part ++ done) (part ++ done') := by
  refine ⟨?_, fun hn => ?_⟩
  · rw [List.count_append, List.count_append, h.count_eq]
    omega
  · rw [List.reverse_append, List.reverse_append]
    exact (h.converted hn).append (.refl _)

theorem cons (h : Lag n done done') (b : UInt8) : Lag n (b :: done) (b :: done') := h.append [b]

theorem lineBreak (h : Lag n done done') : Lag n (lf :: done) (lf :: cr :: done') := by
  refine ⟨?_, fun hn => ?_⟩
  · rw [List.count_cons_self, List.count_cons_self, List.count_cons_of_ne (by decide), h.count_eq]
    omega
  · have hconverted := (h.converted hn).append (.lineBreak .nil)
    simpa using hconverted

theorem splice (h : Lag n done done') : Lag (n + 1) done (lf :: cr :: done') := by
  refine ⟨?_, fun hn => absurd hn (Nat.succ_ne_zero n)⟩
  rw [List.count_cons_self, List.count_cons_of_ne (by decide), h.count_eq]
  rfl

end Lag

/-- What was read of two strings, one in the source with LF and one in that with CR LF. -/
structure Body.Alike (n : Nat) (found found' : Text × Nat × Text) : Prop where
  lag : Lag n found.1 found'.1
  breaks_eq : found'.2.1 = found.2.1
  rest_eq : found'.2.2 = crlf found.2.2

theorem ne_of_isQuote {b c : UInt8} (h : isQuote b = true) (hc : isQuote c = false) : (c == b) = false := by
  rw [beq_eq_false_iff_ne]
  rintro rfl
  rw [h] at hc
  cases hc

section

variable {raw triple : Bool} {quote : UInt8} (hquote : isQuote quote = true)

include hquote

theorem stringBody?_cr (done : Text) (breaks : Nat) (rest : Text) :
    stringBody? raw triple quote done breaks (cr :: rest) =
      stringBody? raw triple quote (cr :: done) breaks rest := by
  rw [stringBody?.eq_def]
  simp only [ne_of_isQuote hquote (show isQuote cr = false by decide)]
  rfl

theorem stringBody?_lf (done : Text) (breaks : Nat) (rest : Text) :
    stringBody? raw triple quote done breaks (lf :: rest) =
      if triple then stringBody? raw triple quote (lf :: done) (breaks + 1) rest else none := by
  rw [stringBody?.eq_def]
  simp only [ne_of_isQuote hquote (show isQuote lf = false by decide)]
  rfl

theorem splices_lf (rest : Text) :
    splices triple quote (lf :: rest) = if triple then splices triple quote rest else 0 := by
  rw [splices.eq_def]
  simp only [ne_of_isQuote hquote (show isQuote lf = false by decide)]
  rfl

/-- A backslash and the byte that it escapes. -/
theorem stringBody?_escape {next : UInt8} (hnext : (next == lf) = false) (done : Text) (breaks : Nat)
    (rest : Text) :
    stringBody? raw triple quote done breaks ('\\' :: next :: rest) =
      stringBody? raw triple quote
        ((if raw then [next, '\\'] else (escaped next).reverse) ++ done) breaks rest := by
  rw [stringBody?.eq_def]
  simp only [ne_of_isQuote hquote (show isQuote '\\' = false by decide), hnext]
  cases raw <;> rfl

theorem splices_escape (next : UInt8) (rest : Text) :
    splices triple quote ('\\' :: next :: rest) =
      if next == lf then splices triple quote rest + 1 else splices triple quote rest := by
  rw [splices.eq_def]
  simp only [ne_of_isQuote hquote (show isQuote '\\' = false by decide)]
  rfl

theorem startsWith_quotes_crlf (t : Text) :
    Text.startsWith (crlf t) [quote, quote] = Text.startsWith t [quote, quote] := by
  refine Text.startsWith_crlf ?_ ?_ t
  · rcases isQuote_iff.1 hquote with rfl | rfl <;> decide
  · rcases isQuote_iff.1 hquote with rfl | rfl <;> decide

theorem drop_quotes_crlf {t : Text} (h : Text.startsWith t [quote, quote] = true) :
    (crlf t).drop 2 = crlf (t.drop 2) := by
  refine Text.drop_crlf ?_ h
  rcases isQuote_iff.1 hquote with rfl | rfl <;> decide

theorem ne_lf_of_beq_quote {b : UInt8} (h : (b == quote) = true) : b ≠ lf := by
  rintro rfl
  rw [ne_of_isQuote hquote (by decide)] at h
  cases h

/-- A string that is not cut at a splice is read in both sources. The value has one more line end for each
splice, unless the string is raw. -/
theorem stringBody?_crlf {done done' : Text} {breaks n : Nat} {t : Text} (hlag : Lag n done done')
    (hcut : triple = false → splices triple quote t = 0) :
    Option.Rel (Body.Alike (n + if raw then 0 else splices triple quote t))
      (stringBody? raw triple quote done breaks t)
      (stringBody? raw triple quote done' breaks (crlf t)) := by
  fun_induction stringBody? raw triple quote done breaks t generalizing done' n with
  | case1 => exact .none
  | case2 done breaks b rest hclose =>
    have hb : b ≠ lf := ne_lf_of_beq_quote hquote (Bool.and_eq_true_iff.1 hclose).1
    rw [Text.crlf_cons hb, stringBody?.eq_def, splices.eq_def]
    simp only [hclose, if_true, ite_self]
    exact .some ⟨hlag, rfl, rfl⟩
  | case3 done breaks b rest hopen hclose =>
    obtain ⟨hbq, hquotes⟩ := Bool.and_eq_true_iff.1 hclose
    have hb : b ≠ lf := ne_lf_of_beq_quote hquote hbq
    rw [Text.crlf_cons hb, stringBody?.eq_def, splices.eq_def]
    simp only [hopen, hclose, startsWith_quotes_crlf hquote, if_true, ite_self, if_false, Bool.false_eq_true]
    exact .some ⟨hlag, rfl, drop_quotes_crlf hquote hquotes⟩
  | case4 done breaks b rest _ _ hb htriple ih =>
    obtain rfl : b = lf := eq_of_beq hb
    rw [splices_lf hquote, if_pos htriple] at hcut ⊢
    rw [Text.crlf_lineBreak, stringBody?_cr hquote, stringBody?_lf hquote, if_pos htriple]
    exact ih hlag.lineBreak hcut
  | case5 done breaks b rest _ _ hb htriple =>
    obtain rfl : b = lf := eq_of_beq hb
    rw [Text.crlf_lineBreak, stringBody?_cr hquote, stringBody?_lf hquote, if_neg htriple]
    exact .none
  | case6 done breaks b _ _ hb =>
    obtain rfl : b = '\\' := eq_of_beq hb
    rw [Text.crlf_cons (by decide), Text.crlf_nil, stringBody?.eq_def]
    simp only [ne_of_isQuote hquote (show isQuote '\\' = false by decide)]
    exact .none
  | case7 done breaks b _ _ hb next rest hnext _ ih =>
    obtain rfl : b = '\\' := eq_of_beq hb
    obtain rfl : next = lf := eq_of_beq hnext
    rw [splices_escape hquote, if_pos hnext] at hcut ⊢
    have hmany : ¬ triple = false := fun hone => absurd (hcut hone) (Nat.succ_ne_zero _)
    rw [Text.crlf_cons (by decide), Text.crlf_lineBreak, stringBody?_escape hquote (by decide),
      stringBody?_lf hquote, if_pos (Bool.eq_true_of_not_eq_false hmany)]
    cases raw with
    | true => exact ih (hlag.cons '\\').lineBreak fun hone => absurd hone hmany
    | false =>
      have hread := ih hlag.splice fun hone => absurd hone hmany
      rw [Nat.add_assoc, Nat.add_comm 1] at hread
      exact hread
  | case8 done breaks b _ _ hb next rest hnext hraw _ ih =>
    obtain rfl : b = '\\' := eq_of_beq hb
    have hnext' : (next == lf) = false := Bool.eq_false_iff.2 hnext
    rw [splices_escape hquote, if_neg hnext] at hcut ⊢
    have hpart : (if raw then [next, '\\'] else (escaped next).reverse) = [next, '\\'] := if_pos hraw
    rw [Text.crlf_cons (by decide), Text.crlf_cons (by simpa using hnext),
      stringBody?_escape hquote hnext', hpart]
    exact ih (hlag.append [next, '\\']) hcut
  | case9 done breaks b _ _ hb next rest hnext hraw _ ih =>
    obtain rfl : b = '\\' := eq_of_beq hb
    have hnext' : (next == lf) = false := Bool.eq_false_iff.2 hnext
    rw [splices_escape hquote, if_neg hnext] at hcut ⊢
    have hpart : (if raw then [next, '\\'] else (escaped next).reverse) = (escaped next).reverse :=
      if_neg hraw
    rw [Text.crlf_cons (by decide), Text.crlf_cons (by simpa using hnext),
      stringBody?_escape hquote hnext', hpart]
    exact ih (hlag.append _) hcut
  | case10 done breaks b rest hopen hclose hb hback ih =>
    have hsplices : splices triple quote (b :: rest) = splices triple quote rest := by
      rw [splices.eq_def]
      simp only [hopen, hclose, hb, hback, if_false, Bool.false_eq_true]
    rw [hsplices] at hcut ⊢
    rw [Text.crlf_cons (by simpa using hb), stringBody?.eq_def _ _ _ done']
    simp only [hopen, hclose, hb, hback, startsWith_quotes_crlf hquote, if_false, Bool.false_eq_true]
    exact ih (hlag.cons b) hcut

/-- In the source with CR LF, a string of one line ends at a line end behind a backslash: the backslash
takes the CR, and the LF is left. -/
theorem stringBody?_crlf_cut {t : Text} (hcut : splices false quote t ≠ 0) (done : Text) (breaks : Nat) :
    stringBody? raw false quote done breaks (crlf t) = none := by
  fun_induction splices false quote t generalizing done breaks with
  | case1 | case2 | case3 | case5 | case6 => exact absurd rfl hcut
  | case4 _ _ _ _ _ htriple => cases htriple
  | case7 b _ _ hb next rest hnext =>
    obtain rfl : b = '\\' := eq_of_beq hb
    obtain rfl : next = lf := eq_of_beq hnext
    rw [Text.crlf_cons (by decide), Text.crlf_lineBreak, stringBody?_escape hquote (by decide),
      stringBody?_lf hquote]
    rfl
  | case8 b _ _ hb next rest hnext _ ih =>
    obtain rfl : b = '\\' := eq_of_beq hb
    rw [Text.crlf_cons (by decide), Text.crlf_cons (by simpa using hnext),
      stringBody?_escape hquote (Bool.eq_false_iff.2 hnext)]
    exact ih hcut _ _
  | case9 b rest hopen hclose hb hback ih =>
    rw [Text.crlf_cons (by simpa using hb), stringBody?.eq_def]
    simp only [hopen, hclose, hb, hback, startsWith_quotes_crlf hquote, if_false, Bool.false_eq_true]
    exact ih hcut _ _

end

namespace Opening

variable {o : Opening}

/-- The same string in the source with CR LF. -/
def crlf (o : Opening) : Opening := { o with rest := o.rest.crlf }

/-- The line ends of the string that stand directly behind a backslash. -/
def splices (o : Opening) : Nat := Python.splices o.triple o.quote o.body

/-- A string of one line that is continued on the next one. -/
def cut (o : Opening) : Bool := !o.triple && o.splices != 0

/-- A string with a backslash directly before a line end that is not kept as it is written: every
string but a raw one in triple quotes. -/
def spliced (o : Opening) : Bool := !(o.raw && o.triple) && o.splices != 0

theorem triple_crlf (hquote : isQuote o.quote = true) : o.crlf.triple = o.triple :=
  startsWith_quotes_crlf hquote o.rest

theorem body_crlf (hquote : isQuote o.quote = true) : o.crlf.body = o.body.crlf := by
  rw [body, body, triple_crlf hquote]
  cases htriple : o.triple with
  | true => exact drop_quotes_crlf hquote htriple
  | false => rfl

end Opening

theorem head_crlf (b : UInt8) (rest : Text) : head b (crlf rest) = head b rest := by
  rw [head, head, Text.any_head?_crlf (by decide) (by decide)]

theorem opening?_crlf (b : UInt8) (rest : Text) :
    opening? (b :: crlf rest) = (opening? (b :: rest)).map Opening.crlf := by
  by_cases hb : b = lf
  · subst hb
    rfl
  · have htake : (b :: crlf rest).takeWhile continuesName = (b :: rest).takeWhile continuesName := by
      rw [← Text.crlf_cons hb, Text.takeWhile_crlf (by decide) (by decide)]
    have hdrop : (b :: crlf rest).dropWhile continuesName =
        crlf ((b :: rest).dropWhile continuesName) := by
      rw [← Text.crlf_cons hb, Text.dropWhile_crlf (by decide) (by decide)]
    rw [opening?, opening?, htake, hdrop]
    split_ifs
    · rfl
    · cases (b :: rest).dropWhile continuesName with
      | nil => rfl
      | cons quote after =>
        by_cases hq : quote = lf
        · subst hq
          rfl
        · rw [Text.crlf_cons hq]
          simp only [apply_ite (Option.map Opening.crlf)]
          rfl
    · rfl

theorem numberSpan_crlf (hex : Bool) (done t : Text) :
    numberSpan hex done (crlf t) = ((numberSpan hex done t).1, crlf (numberSpan hex done t).2) := by
  induction t generalizing done with
  | nil => rfl
  | cons b rest ih =>
    by_cases hb : b = lf
    · subst hb
      rfl
    · rw [Text.crlf_cons hb, numberSpan, numberSpan]
      split_ifs
      · exact ih (b :: done)
      · exact ih (b :: done)
      · rw [Text.crlf_cons hb]

end LiteralAudit.Python
