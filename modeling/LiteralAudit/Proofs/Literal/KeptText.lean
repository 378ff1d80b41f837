import LiteralAudit.Proofs.Library.Growth
import LiteralAudit.Proofs.Literal.Python.KeptText
import LiteralAudit.Proofs.Path.Clean
import LiteralAudit.Proofs.Regex.Language
import Mathlib

/-!
# Text stays text

The names and values that are read from a source which is valid UTF-8 need not be valid themselves. What
tears a character apart is a backslash before it, in a string of Python that is no raw string and in a
quoted string of any other language (`text_of_literals_iff`); nothing else does.
-/

namespace LiteralAudit

/-! ## Lines -/

namespace Text

theorem isUtf8_finishLine {line : Text} (h : Text.isUtf8 line.reverse = true) :
    (finishLine line).isUtf8 = true := by
  unfold finishLine
  split
  · next b rest =>
    split
    · next hb =>
      rw [eq_of_beq hb, List.reverse_cons, isUtf8_append_ascii _ (by decide), Bool.and_eq_true] at h
      exact h.1
    · exact h
  · rfl

/-- The lines of a valid text are valid. -/
theorem isUtf8_of_mem_scanLinesFrom {limit size : Nat} {done : List Text} {line t : Text}
    (hdone : ∀ l ∈ done, l.isUtf8 = true) (h : isUtf8 (line.reverse ++ t) = true) :
    ∀ l ∈ (scanLinesFrom limit done line size t).1, l.isUtf8 = true := by
  fun_induction scanLinesFrom limit done line size t with
  | case1 done line size =>
    rw [List.append_nil] at h
    intro l hl
    rw [List.mem_reverse] at hl
    split at hl
    · exact hdone l hl
    · rcases List.mem_cons.1 hl with rfl | hl
      · exact isUtf8_finishLine h
      · exact hdone l hl
  | case2 done line size b rest hb ih =>
    rw [eq_of_beq hb, isUtf8_append_ascii _ (by decide), Bool.and_eq_true] at h
    exact ih (List.forall_mem_cons.2 ⟨isUtf8_finishLine h.1, hdone⟩) h.2
  | case3 done line size b rest hb htoo =>
    exact fun l hl => hdone l (List.mem_reverse.1 hl)
  | case4 done line size b rest hb hfits ih =>
    refine ih hdone ?_
    rwa [List.reverse_cons, List.append_assoc]

end Text

namespace QuotedStrings

open Regex

/-! ## The expression -/

/-- A name with its colon or equals sign. -/
def key : Regex :=
  let name := Regex.seq (.chars [(65, 90), (97, 122), (95, 95), (36, 36)])
    (.rep 0 none true
      (.chars [(48, 57), (65, 90), (95, 95), (97, 122), (46, 46), (36, 36), (45, 45)]))
  let blanks := Regex.rep 0 none true (.chars [(9, 10), (12, 13), (32, 32)])
  let sign := altAll [char ':', char '=', seqAll [char ':', char '=']]
  .rep 0 (some 1) true
    (seqAll [.group 1 name, .rep 0 (some 1) true (.chars [(34, 34), (39, 39)]), blanks, sign, blanks])

/-- A string between quotes. -/
def between (quote : Char) (inner : Regex) : Regex :=
  seqAll [char quote, .rep 0 none true inner, char quote]

/-- An escaped character, or one that is not in a set. -/
def escapedOrNot (set : CharSet) : Regex :=
  .alt (.chars set.complement) (seqAll [char '\\', .chars (CharSet.complement [(10, 10)])])

/-- A quoted string. -/
def quotedString : Regex :=
  altAll
    [between '"' (escapedOrNot [(34, 34), (92, 92)]),
     between '\'' (escapedOrNot [(39, 39), (92, 92)]),
     between '`' (.chars (CharSet.complement [(96, 96)]))]

theorem read_expression : Regex.read expression = .ok (.seq key (.group 2 quotedString)) := rfl

theorem automaton_pattern : pattern.automaton = (Regex.seq key (.group 2 quotedString)).automaton := by
  rw [pattern, Pattern.compile, read_expression]
  rfl

theorem exists_of_says_between {quote : Char} {inner : Regex} {w : List Char}
    (h : (between quote inner).Says w) : ∃ v, w = quote :: v ++ [quote] := by
  obtain ⟨u, v, rfl, hu, v, u', rfl, -, hu'⟩ := h
  exact ⟨v, by rw [says_char.1 hu, says_char.1 hu']; rfl⟩

/-- A quoted string stands between two ASCII characters. -/
theorem exists_of_says {w : List Char} (h : quotedString.Says w) :
    ∃ q v, w = q :: v ++ [q] ∧ (q = '"' ∨ q = '\'' ∨ q = '`') := by
  obtain h | h | h := h
  · obtain ⟨v, rfl⟩ := exists_of_says_between h
    exact ⟨_, v, rfl, .inl rfl⟩
  · obtain ⟨v, rfl⟩ := exists_of_says_between h
    exact ⟨_, v, rfl, .inr (.inl rfl)⟩
  · obtain ⟨v, rfl⟩ := exists_of_says_between h
    exact ⟨_, v, rfl, .inr (.inr rfl)⟩

/-! ## Literals of a line -/

/-- What stands between the quotes of a match. -/
def inner (line : Text) (m : Pattern.Match) : Text := (((m.group? line 2).getD []).drop 1).dropLast

/-- What stands between the quotes of the strings of a source, in order. -/
def inners (source : Text) : List Text :=
  (source.scanLines Text.lineLimit).1.flatMap fun line => (pattern.findAll line).map (inner line)

variable {line : Text} {m : Pattern.Match}

theorem isUtf8_inner (hline : line.isUtf8 = true) (hm : m ∈ pattern.findAll line) :
    (inner line m).isUtf8 = true := by
  have hoccurs := Pattern.occurs_of_mem_findAll (by decide) automaton_pattern m hm
  obtain ⟨w, hsaid, hgroup⟩ := Pattern.says_of_group? hline hoccurs (by decide) (by rfl)
  obtain ⟨q, v, rfl, hquote⟩ := exists_of_says hsaid
  have hone : ∃ b, Text.ofChar q = [b] := by
    rcases hquote with rfl | rfl | rfl <;> exact ⟨_, rfl⟩
  obtain ⟨b, hb⟩ := hone
  have hquoted : Text.ofChars (q :: v ++ [q]) = b :: Text.ofChars v ++ [b] := by
    have hlast : Text.ofChars [q] = [b] := by
      rw [Text.ofChars_cons, hb]
      rfl
    rw [Text.ofChars_append, Text.ofChars_cons, hb, hlast]
    rfl
  have hinner : inner line m = Text.ofChars v := by
    rw [inner, hgroup, Option.getD_some, hquoted]
    simp
  rw [hinner]
  exact Text.isUtf8_ofChars v

/-- The part of a valid name after its last dot is valid. -/
theorem isUtf8_lastPart {name : Text} (h : name.isUtf8 = true) : (lastPart name).isUtf8 = true := by
  by_cases hdot : ('.' : UInt8) ∈ name
  · obtain ⟨behind, front, hsplit, hbehind⟩ := List.eq_append_cons_of_mem (List.mem_reverse.2 hdot)
    obtain rfl : name = front.reverse ++ ('.' : UInt8) :: behind.reverse := by
      rw [← @List.reverse_reverse _ name, hsplit]
      simp
    rw [lastPart, Path.lastIndexOfByte?_append (by rwa [List.mem_reverse])]
    rw [Text.isUtf8_append_ascii _ (by decide), Bool.and_eq_true] at h
    dsimp only
    rw [List.drop_append, List.drop_eq_nil_of_le (by simp), List.nil_append, Nat.add_sub_cancel_left]
    exact h.2
  · rw [lastPart, Path.lastIndexOfByte?_eq_none hdot]
    exact h

theorem isUtf8_binding (hline : line.isUtf8 = true) (hm : m ∈ pattern.findAll line) :
    (lastPart ((m.group? line 1).getD [])).isUtf8 = true := by
  have hoccurs := Pattern.occurs_of_mem_findAll (by decide) automaton_pattern m hm
  refine isUtf8_lastPart ?_
  cases hgroup : m.group? line 1 with
  | none => rfl
  | some g => exact Pattern.isUtf8_of_group? hline hoccurs hgroup

/-! ## Literals of a source -/

theorem text_of_lines {lines : List Text} (hlines : ∀ line ∈ lines, line.isUtf8 = true) (start : Nat) :
    List.Forall₂ (fun l w => (l.value.isUtf8 = true ↔ w.escapedBytes.IsAscii) ∧ l.binding.isUtf8 = true)
      ((lines.zipIdx start).flatMap fun (line, number) => lineLiterals number line)
      (lines.flatMap fun line => (pattern.findAll line).map (inner line)) := by
  induction lines generalizing start with
  | nil => exact .nil
  | cons line lines ih =>
    obtain ⟨hline, hlines⟩ := List.forall_mem_cons.1 hlines
    rw [List.zipIdx_cons, List.flatMap_cons, List.flatMap_cons]
    refine List.rel_append ?_ (ih hlines (start + 1))
    show List.Forall₂ _ (lineLiterals start line) _
    unfold lineLiterals
    rw [List.forall₂_map_left_iff, List.forall₂_map_right_iff, List.forall₂_same]
    intro m hm
    refine ⟨?_, isUtf8_binding hline hm⟩
    dsimp only
    rw [unescape_eq]
    exact Text.isUtf8_replaceEscapes_iff Python.isUtf8_escaped (isUtf8_inner hline hm)

/-- In a source that is valid UTF-8, the value of a quoted string is valid exactly when it escapes ASCII
characters only, and every binding is valid. -/
theorem text_of_literals {source : Text} {ls : List Literal} (hsource : source.isUtf8 = true)
    (h : literals source = .ok ls) :
    List.Forall₂ (fun l w => (l.value.isUtf8 = true ↔ w.escapedBytes.IsAscii) ∧ l.binding.isUtf8 = true)
      ls (inners source) := by
  unfold literals at h
  dsimp only at h
  split_ifs at h
  cases h
  have hunread : Text.isUtf8 (List.reverse [] ++ source) = true := hsource
  exact text_of_lines (Text.isUtf8_of_mem_scanLinesFrom (List.forall_mem_nil _) hunread) 1

end QuotedStrings

/-! ## Both readers -/

/-- The value of a literal and its binding are text: no character of them is torn apart. -/
def Literal.IsText (l : Literal) : Prop := l.value.isUtf8 = true ∧ l.binding.isUtf8 = true

theorem forall_mem_iff_of_forall₂ {α β : Type} {p : α → Prop} {q : β → Prop} {xs : List α} {ys : List β}
    (h : List.Forall₂ (fun x y => p x ↔ q y) xs ys) : (∀ x ∈ xs, p x) ↔ ∀ y ∈ ys, q y := by
  induction h with
  | nil => exact iff_of_true (List.forall_mem_nil _) (List.forall_mem_nil _)
  | cons hxy _ ih => rw [List.forall_mem_cons, List.forall_mem_cons, hxy, ih]

/-- The literals of a source of Python are text exactly when its strings keep the text between their
quotes. -/
theorem Python.isText_iff {source : Text} {ls : List Literal} (hsource : source.isUtf8 = true)
    (h : Python.literals source = .ok ls) :
    (∀ l ∈ ls, l.IsText) ↔ ∀ o ∈ Python.strings source, o.KeepsText := by
  obtain ⟨hstrings, hothers⟩ := Python.text_of_literals hsource h
  rw [← forall_mem_iff_of_forall₂ hstrings]
  constructor
  · exact fun hall l hl => (hall l (List.mem_of_mem_filter hl)).1
  · intro hkept
    have hvalues : ∀ l ∈ ls, l.value.isUtf8 = true := by
      intro l hl
      cases hnumeric : l.numeric with
      | true => exact (hothers l hl).1 hnumeric
      | false => exact hkept l (List.mem_filter.2 ⟨hl, by rw [hnumeric]; rfl⟩)
    refine fun l hl => ⟨hvalues l hl, ?_⟩
    rcases (hothers l hl).2 with hvalid | ⟨k, hk, -, hvalue⟩
    · exact hvalid
    · exact hvalue ▸ hvalues k hk

/-- What becomes of text. In a source that is valid UTF-8, the value of a string of Python is valid exactly
when the string is raw or escapes ASCII characters only, and when all values are, so are all bindings. The
value of a quoted string of another language is valid exactly when it escapes ASCII characters only, and
its binding always is. -/
theorem text_of_literals_iff {source : Text} (hsource : source.isUtf8 = true) :
    (∀ ls, Python.literals source = .ok ls →
      List.Forall₂ (fun l o => l.value.isUtf8 = true ↔ o.KeepsText) (ls.filter (!·.numeric))
        (Python.strings source) ∧
      ((∀ l ∈ ls, l.IsText) ↔ ∀ o ∈ Python.strings source, o.KeepsText)) ∧
    ∀ ls, QuotedStrings.literals source = .ok ls →
      List.Forall₂ (fun l w => (l.value.isUtf8 = true ↔ w.escapedBytes.IsAscii) ∧ l.binding.isUtf8 = true)
        ls (QuotedStrings.inners source) :=
  ⟨fun _ h => ⟨(Python.text_of_literals hsource h).1, Python.isText_iff hsource h⟩,
    fun _ h => QuotedStrings.text_of_literals hsource h⟩

/-- An escape in front of a letter beyond ASCII: the first byte of the letter becomes a character of its
own, and the second one is left behind. -/
theorem letter_torn_apart :
    Text.isUtf8 "x = \"\\é\"\n" = true ∧
      Python.literals "x = \"\\é\"\n" = .ok [⟨[0xC3, 0x83, 0xA9], 1, false, "x"⟩] ∧
      Text.isUtf8 [0xC3, 0x83, 0xA9] = false := by
  decide

/-- Letters beyond ASCII behind an escaped tab, and behind a backslash in a raw string. -/
def umlauts : Text := "größe = \"\\tß\", r\"\\é\"\n"

theorem strings_umlauts :
    Python.strings umlauts = [⟨[], '"', "\\tß\", r\"\\é\"\n"⟩, ⟨"r", '"', "\\é\"\n"⟩] := by
  decide

theorem umlauts_kept :
    Text.isUtf8 umlauts = true ∧
      ∃ ls, Python.literals umlauts = .ok ls ∧ ls.map (·.value) = ["\tß", "\\é"] ∧ ∀ l ∈ ls, l.IsText := by
  have hsource : Text.isUtf8 umlauts = true := by decide
  have hread : Python.literals umlauts = .ok [⟨"\tß", 1, false, "größe"⟩, ⟨"\\é", 1, false, []⟩] := by
    decide
  refine ⟨hsource, _, hread, rfl, ((text_of_literals_iff hsource).1 _ hread).2.2 ?_⟩
  have hinner : Python.Opening.inner ⟨[], '"', "\\tß\", r\"\\é\"\n"⟩ = "\\tß" := by decide
  have hescaped : Text.escapedBytes "\\tß" = ['t'] := by decide
  rw [strings_umlauts, List.forall_mem_cons, List.forall_mem_singleton]
  refine ⟨.inr ?_, .inl (by decide)⟩
  rw [hinner, hescaped]
  exact List.forall_mem_singleton.2 (by decide)

end LiteralAudit
