import LiteralAudit.Literal.Quoted
import LiteralAudit.Proofs.Literal.Python.LineNumbers
import LiteralAudit.Proofs.Text.Utf8
import Mathlib

/-!
# Escapes in strings

Both readers of quoted strings replace what a backslash escapes byte by byte (`Text.replaceEscapes`): a
string of Python by `Python.stringBody?_eq_some`, one of any other language by
`QuotedStrings.unescape_eq`. A byte that is escaped becomes a character of its own. So where the text
between the quotes is valid UTF-8, its value is valid exactly when every **escaped byte** is that of an
ASCII character (`Text.isUtf8_replaceEscapes_iff`): the first byte of any other character is torn away
from the ones behind it, which start nothing.
-/

namespace LiteralAudit

namespace Text

/-- The bytes of a text that stand behind an escaping backslash. -/
def escapedBytes : Text → Text
  | a :: b :: rest => if a == '\\' then b :: escapedBytes rest else escapedBytes (b :: rest)
  | _ => []

/-- The text with every escaped byte replaced by its meaning, and without the backslash before it. -/
def replaceEscapes (meaning : UInt8 → Text) : Text → Text
  | a :: b :: rest =>
    if a == '\\' then meaning b ++ replaceEscapes meaning rest
    else a :: replaceEscapes meaning (b :: rest)
  | t => t

variable {meaning : UInt8 → Text} {a b : UInt8} {t : Text}

theorem escapedBytes_backslash (b : UInt8) (rest : Text) :
    escapedBytes (('\\' : UInt8) :: b :: rest) = b :: escapedBytes rest := rfl

theorem replaceEscapes_backslash (b : UInt8) (rest : Text) :
    replaceEscapes meaning (('\\' : UInt8) :: b :: rest) = meaning b ++ replaceEscapes meaning rest := rfl

theorem escapedBytes_cons (h : a ≠ '\\') (t : Text) : escapedBytes (a :: t) = escapedBytes t := by
  cases t with
  | nil => rfl
  | cons b t => exact if_neg (by simpa using h)

theorem replaceEscapes_cons (h : a ≠ '\\') (t : Text) :
    replaceEscapes meaning (a :: t) = a :: replaceEscapes meaning t := by
  cases t with
  | nil => rfl
  | cons b t => exact if_neg (by simpa using h)

theorem ne_backslash_of_ge (h : 0x80 ≤ a.toNat) : a ≠ '\\' := by
  rintro rfl
  exact absurd h (by decide)

/-- Bytes beyond ASCII are no backslashes. -/
theorem escapedBytes_append {s : Text} (h : ∀ a ∈ s, 0x80 ≤ a.toNat) (t : Text) :
    escapedBytes (s ++ t) = escapedBytes t := by
  induction s with
  | nil => rfl
  | cons a s ih =>
    obtain ⟨ha, hs⟩ := List.forall_mem_cons.1 h
    rw [List.cons_append, escapedBytes_cons (ne_backslash_of_ge ha), ih hs]

theorem replaceEscapes_append {s : Text} (h : ∀ a ∈ s, 0x80 ≤ a.toNat) (t : Text) :
    replaceEscapes meaning (s ++ t) = s ++ replaceEscapes meaning t := by
  induction s with
  | nil => rfl
  | cons a s ih =>
    obtain ⟨ha, hs⟩ := List.forall_mem_cons.1 h
    rw [List.cons_append, replaceEscapes_cons (ne_backslash_of_ge ha), ih hs, List.cons_append]

/-- Escapes tear no character apart exactly when they escape ASCII characters only. -/
theorem isUtf8_replaceEscapes_iff (hmeaning : ∀ b, (meaning b).isUtf8 = true) (h : t.isUtf8 = true) :
    (replaceEscapes meaning t).isUtf8 = true ↔ IsAscii (escapedBytes t) := by
  induction hlen : t.length using Nat.strongRecOn generalizing t with
  | ind n ih =>
    subst hlen
    obtain rfl | ⟨c, b, tail, rest, rfl, hspelled, hrest⟩ := exists_spelled h
    · exact iff_of_true rfl (List.forall_mem_nil _)
    have hshorter : (replaceEscapes meaning rest).isUtf8 = true ↔ IsAscii (escapedBytes rest) :=
      ih rest.length (by simp) hrest rfl
    by_cases hb : b = '\\'
    · -- A backslash: the character behind it is torn apart unless it is a single byte.
      obtain rfl : tail = [] := hspelled.lt_iff_tail_eq_nil.1 (hb ▸ (by decide))
      subst hb
      obtain rfl | ⟨d, e, more, after, rfl, hescaped, hafter⟩ := exists_spelled hrest
      · exact iff_of_true rfl (List.forall_mem_nil _)
      rw [List.cons_append, List.nil_append, List.cons_append, replaceEscapes_backslash,
        escapedBytes_backslash, isUtf8_append (hmeaning e)]
      cases more with
      | nil =>
        have he : e.toNat < 0x80 := hescaped.lt_iff_tail_eq_nil.2 rfl
        rw [List.nil_append, ih after.length (by simp) hafter rfl]
        exact ⟨.cons he, fun hall => (List.forall_mem_cons.1 hall).2⟩
      | cons f more =>
        have hf := hescaped.continues_of_mem_tail List.mem_cons_self
        have he : ¬ e.toNat < 0x80 := mt hescaped.lt_iff_tail_eq_nil.1 (List.cons_ne_nil f more)
        rw [List.cons_append, replaceEscapes_cons (ne_backslash_of_ge hf.1), isUtf8_cons_continuing hf]
        exact iff_of_false Bool.false_ne_true fun hall => he (hall e List.mem_cons_self)
    · cases tail with
      | nil =>
        rw [List.cons_append, List.nil_append, replaceEscapes_cons hb, escapedBytes_cons hb,
          isUtf8_cons_ascii (hspelled.lt_iff_tail_eq_nil.2 rfl), hshorter]
      | cons d tail =>
        have hbeyond := hspelled.ge_of_tail_ne_nil (List.cons_ne_nil d tail)
        rw [replaceEscapes_append hbeyond, escapedBytes_append hbeyond,
          isUtf8_spelled hspelled, hshorter]

end Text

/-! ## The two readers -/

namespace QuotedStrings

theorem unescapeFrom_eq (done t : Text) :
    unescapeFrom done t = done.reverse ++ t.replaceEscapes Python.escaped := by
  fun_induction unescapeFrom done t with
  | case1 done => exact (List.append_nil _).symm
  | case2 done b => exact List.reverse_cons
  | case3 done a b rest ha ih =>
    rw [ih, Text.replaceEscapes, if_pos ha, List.reverse_append, List.reverse_reverse, List.append_assoc]
  | case4 done a b rest ha ih =>
    rw [ih, Text.replaceEscapes, if_neg ha, List.reverse_cons, List.append_assoc]
    rfl

theorem unescape_eq (t : Text) : unescape t = t.replaceEscapes Python.escaped := unescapeFrom_eq [] t

end QuotedStrings

namespace Python

/-- What an escaped byte stands for in a string: a line break is passed over. -/
def meaning (b : UInt8) : Text := if b == '\n' then [] else escaped b

theorem isUtf8_escaped (b : UInt8) : (escaped b).isUtf8 = true := by
  unfold escaped
  split_ifs
  · rfl
  · rfl
  · rfl
  · rfl
  · rw [← List.append_nil (Text.ofChar _)]
    exact Text.isUtf8_ofChars [Char.ofNat b.toNat]

theorem isUtf8_meaning (b : UInt8) : (meaning b).isUtf8 = true := by
  unfold meaning
  split_ifs
  · rfl
  · exact isUtf8_escaped b

/-- The quotes that end a string. -/
def closing (triple : Bool) (quote : UInt8) : Text := List.replicate (if triple then 3 else 1) quote

variable {raw triple : Bool} {quote : UInt8} {done t : Text} {breaks : Nat} {found : Text × Nat × Text}

/-- A string that is closed: its value is what stands between its quotes, with the escapes replaced
unless it is a raw string. As a raw string it would end at the same place. -/
theorem stringBody?_eq_some (h : stringBody? raw triple quote done breaks t = some found) :
    ∃ inner, t = inner ++ closing triple quote ++ found.2.2 ∧
      found.1 = (if raw then inner else inner.replaceEscapes meaning).reverse ++ done ∧
      ∀ start, stringBody? true triple quote start breaks t = some (inner.reverse ++ start, found.2) := by
  fun_induction stringBody? raw triple quote done breaks t with
  | case1 | case5 | case6 => cases h
  | case2 done breaks b rest hend =>
    cases h
    obtain ⟨hb, htriple⟩ := Bool.and_eq_true_iff.1 hend
    obtain rfl := eq_of_beq hb
    rw [Bool.not_eq_true'] at htriple
    subst htriple
    refine ⟨[], rfl, by cases raw <;> rfl, fun start => ?_⟩
    rw [stringBody?.eq_def]
    exact if_pos hend
  | case3 done breaks b rest hsingle hend =>
    cases h
    obtain ⟨hb, hquotes⟩ := Bool.and_eq_true_iff.1 hend
    obtain rfl := eq_of_beq hb
    obtain rfl : triple = true := by simpa using hsingle
    refine ⟨[], congrArg _ (startsWith_quotes hquotes), by cases raw <;> rfl, fun start => ?_⟩
    rw [stringBody?.eq_def]
    exact (if_neg hsingle).trans (if_pos hend)
  | case4 done breaks b rest hsingle hend hb htriple ih =>
    obtain ⟨inner, ht, hvalue, hraw⟩ := ih h
    have hne : b ≠ '\\' := by
      rw [eq_of_beq hb]
      decide
    refine ⟨b :: inner, congrArg (b :: ·) ht, ?_, fun start => ?_⟩
    · rw [hvalue, Text.replaceEscapes_cons hne]
      cases raw <;> simp
    · rw [stringBody?.eq_def]
      simp only [if_neg hsingle, if_neg hend, if_pos hb, if_pos htriple, hraw]
      simp
  | case7 done breaks b hsingle hb hbackslash next rest hnext hend ih =>
    obtain ⟨inner, ht, hvalue, hraw⟩ := ih h
    obtain rfl := eq_of_beq hbackslash
    refine ⟨_ :: next :: inner, congrArg (_ :: next :: ·) ht, ?_, fun start => ?_⟩
    · rw [hvalue, Text.replaceEscapes_backslash, meaning, if_pos hnext]
      cases raw <;> simp
    · rw [stringBody?.eq_def]
      simp only [if_neg hsingle, if_neg hend, if_neg hb, if_pos hbackslash, if_pos hnext, if_true, hraw]
      simp
  | case8 done breaks b hsingle hb hbackslash next rest hnext hraw' hend ih
    | case9 done breaks b hsingle hb hbackslash next rest hnext hraw' hend ih =>
    obtain ⟨inner, ht, hvalue, hraw⟩ := ih h
    obtain rfl := eq_of_beq hbackslash
    refine ⟨_ :: next :: inner, congrArg (_ :: next :: ·) ht, ?_, fun start => ?_⟩
    · rw [hvalue, Text.replaceEscapes_backslash, meaning, if_neg hnext]
      simp [hraw']
    · rw [stringBody?.eq_def]
      simp only [if_neg hsingle, if_neg hend, if_neg hb, if_pos hbackslash, if_neg hnext, if_true, hraw]
      simp
  | case10 done breaks b rest hsingle hend hb hbackslash ih =>
    obtain ⟨inner, ht, hvalue, hraw⟩ := ih h
    have hne : b ≠ '\\' := by simpa using hbackslash
    refine ⟨b :: inner, congrArg (b :: ·) ht, ?_, fun start => ?_⟩
    · rw [hvalue, Text.replaceEscapes_cons hne]
      cases raw <;> simp
    · rw [stringBody?.eq_def]
      simp only [if_neg hsingle, if_neg hend, if_neg hb, if_neg hbackslash, hraw]
      simp

end Python

end LiteralAudit
