import LiteralAudit.Proofs.Literal.Python.Lexer
import LiteralAudit.Proofs.Literal.Python.SplicedStrings
import Mathlib

/-!
# Sources read piece by piece

A state **reaches** another when steps of the lexer lead there; a source whose first state reaches one
with nothing left has the literals of that state (`literals_of_reaches`). A **name** and a **written
string** are texts that the lexer takes in one step, whatever the state (`reaches_name`,
`reaches_string`), as long as what follows does not go on with them.
-/

namespace LiteralAudit.Python

variable {lx next last : Lexer} {after : Text}

namespace Lexer

/-- One step leads from `lx` to `next`. -/
def Steps (lx next : Lexer) : Prop := ∃ b rest, lx.rest = b :: rest ∧ lx.step b rest = .ok next

/-- Steps lead from `lx` to `next`. -/
abbrev Reaches : Lexer → Lexer → Prop := Relation.ReflTransGen Steps

theorem run_of_reaches (h : lx.Reaches last) (hlast : last.rest = []) {fuel : Nat}
    (hfuel : lx.rest.length < fuel) : lx.run fuel = .ok last := by
  induction h using Relation.ReflTransGen.head_induction_on generalizing fuel with
  | refl => exact run_nil hlast fuel
  | head hstep _ ih =>
    obtain ⟨b, rest, hrest, hstep⟩ := hstep
    obtain ⟨fuel, rfl⟩ := Nat.exists_eq_succ_of_ne_zero (Nat.ne_zero_of_lt hfuel)
    rw [run_cons hrest, hstep]
    refine ih (lt_of_le_of_lt (step_suffix hrest hstep).length_le ?_)
    rw [hrest, List.length_cons] at hfuel
    exact Nat.lt_of_succ_lt_succ hfuel

/-- The state, with `t` left to be read. -/
def reading (lx : Lexer) (t : Text) : Lexer := { lx with rest := t }

/-- The state, with `t` as its latest token. -/
def record (lx : Lexer) (t : Token) : Lexer :=
  { lx with recent := (t :: lx.recent).take memory, statement := t :: lx.statement }

/-- The state after tokens that are no line breaks. -/
def recordAll (lx : Lexer) (ts : List Token) : Lexer := ts.foldl record lx

/-- The state, with other brackets open. -/
def withOpened (lx : Lexer) (opened : List Bracket) : Lexer := { lx with opened := opened }

@[simp] theorem opened_withOpened (opened : List Bracket) : (lx.withOpened opened).opened = opened := rfl

@[simp] theorem line_withOpened (opened : List Bracket) : (lx.withOpened opened).line = lx.line := rfl

theorem recordAll_append (lx : Lexer) (ts us : List Token) :
    lx.recordAll (ts ++ us) = (lx.recordAll ts).recordAll us := List.foldl_append

@[simp] theorem rest_reading (t : Text) : (lx.reading t).rest = t := rfl

@[simp] theorem reading_reading (t u : Text) : (lx.reading t).reading u = lx.reading u := rfl

@[simp] theorem line_record (t : Token) : (lx.record t).line = lx.line := rfl

@[simp] theorem opened_record (t : Token) : (lx.record t).opened = lx.opened := rfl

@[simp] theorem statement_record (t : Token) : (lx.record t).statement = t :: lx.statement := rfl

@[simp] theorem literals_record (t : Token) : (lx.record t).literals = lx.literals := rfl

@[simp] theorem line_recordAll (ts : List Token) : (lx.recordAll ts).line = lx.line := by
  induction ts generalizing lx with
  | nil => rfl
  | cons t ts ih => exact ih

@[simp] theorem opened_recordAll (ts : List Token) : (lx.recordAll ts).opened = lx.opened := by
  induction ts generalizing lx with
  | nil => rfl
  | cons t ts ih => exact ih

@[simp] theorem literals_recordAll (ts : List Token) : (lx.recordAll ts).literals = lx.literals := by
  induction ts generalizing lx with
  | nil => rfl
  | cons t ts ih => exact ih

theorem withOpened_eq_self {opened : List Bracket} (h : lx.opened = opened) :
    lx.withOpened opened = lx := by
  rw [← h]
  rfl

/-- Brackets that were open while a token was recorded leave no trace. -/
theorem withOpened_record (t : Token) (opened opened' : List Bracket) :
    ((lx.withOpened opened).record t).withOpened opened' = (lx.withOpened opened').record t := rfl

theorem withOpened_recordAll (ts : List Token) (opened : List Bracket) :
    (lx.recordAll ts).withOpened opened = (lx.withOpened opened).recordAll ts := by
  induction ts generalizing lx with
  | nil => rfl
  | cons t ts ih => exact ih

theorem statement_recordAll (ts : List Token) :
    (lx.recordAll ts).statement = ts.reverse ++ lx.statement := by
  induction ts generalizing lx with
  | nil => rfl
  | cons t ts ih =>
    rw [List.reverse_cons, List.append_assoc]
    exact ih

theorem Reaches.step {b : UInt8} {rest : Text} (hrest : lx.rest = b :: rest)
    (h : lx.step b rest = .ok next) : lx.Reaches next := .single ⟨b, rest, hrest, h⟩

end Lexer

theorem literals_of_reaches {source : Text} (h : ({ rest := source } : Lexer).Reaches last)
    (hlast : last.rest = []) : literals source = last.finish := by
  rw [literals_eq, Lexer.run_of_reaches h hlast (Nat.lt_succ_self _)]
  rfl

/-- A source that is read to its end, outside all brackets and in a statement that passes its checks. -/
theorem literals_of_checked {source : Text}
    (h : ({ rest := source } : Lexer).Reaches (last.reading [])) (hopened : last.opened = [])
    (hchecked : checkLine last.statement.reverse = .ok ()) :
    literals source = .ok last.literals.reverse := by
  rw [literals_of_reaches h rfl]
  simp only [Lexer.finish, Lexer.reading, hopened, Lexer.endStatement_eq, hchecked]
  rfl

open Lexer (Reaches)

/-! ## Blanks, operators and brackets -/

theorem reaches_blank (lx : Lexer) (after : Text) :
    (lx.reading (' ' :: after)).Reaches (lx.reading after) := .step rfl rfl

theorem reaches_op {b c : UInt8} (hhead : head b (c :: after) = .op) (hlong : [b, c] ∉ longOps) :
    (lx.reading (b :: c :: after)).Reaches
      ((lx.record ⟨.op, [b], lx.opened.length, lx.line⟩).reading (c :: after)) := by
  have hshort : longOps.contains [b, c] = false := Bool.eq_false_iff.2 (mt List.contains_iff_mem.1 hlong)
  refine .step rfl ?_
  rw [step_eq, hhead]
  simp only [Lexer.readOp, Lexer.rest_reading, List.take_succ_cons, List.drop_succ_cons, List.drop_zero,
    List.take_zero, hshort]
  rfl

theorem reaches_bracket {b : UInt8} (hhead : head b after = .bracket) :
    (lx.reading (b :: after)).Reaches
      (((lx.withOpened (⟨b, lx.line⟩ :: lx.opened)).record
        ⟨.op, [b], lx.opened.length + 1, lx.line⟩).reading after) := by
  refine .step rfl ?_
  rw [step_eq, hhead]
  rfl

theorem reaches_closingBracket {b : UInt8} {top : Bracket} {below : List Bracket}
    (hhead : head b after = .closingBracket) (hopened : lx.opened = top :: below)
    (htop : (top.byte == opener b) = true) :
    (lx.reading (b :: after)).Reaches
      (((lx.withOpened below).record ⟨.op, [b], below.length, lx.line⟩).reading after) := by
  refine .step rfl ?_
  rw [step_eq, hhead]
  simp only [Lexer.reading, hopened, htop, if_true]
  rfl

/-- The state on the next line, with no statement begun. -/
def Lexer.nextLine (lx : Lexer) : Lexer :=
  { lx with
    line := lx.line + 1
    recent := (⟨.newline, [], lx.opened.length, lx.line + 1⟩ :: lx.recent).take memory
    statement := [] }

/-- A line break outside all brackets, behind a statement that passes its checks. -/
theorem reaches_lineBreak (hopened : lx.opened = []) (hchecked : checkLine lx.statement.reverse = .ok ())
    (after : Text) : (lx.reading ('\n' :: after)).Reaches (lx.nextLine.reading after) := by
  refine .step rfl ?_
  have hhead : head '\n' after = .lineBreak := rfl
  rw [step_eq, hhead]
  simp only [Lexer.reading, hopened, List.isEmpty_nil, if_true, Lexer.endStatement_eq, hchecked]
  simp only [Except.map, Lexer.nextLine, hopened]
  rfl

/-! ## Names -/

/-- A name, as it is written. -/
structure Identifier where
  text : Text
  starts : ∃ b rest, text = b :: rest ∧ startsName b = true
  continues : ∀ b ∈ text, continuesName b = true

/-- A name that is no keyword. -/
structure Variable extends Identifier where
  free : text ∉ keywords

/-- Neither a name nor a string front in front of the text goes on in it. -/
def EndsName (after : Text) : Prop := ∀ b ∈ after.head?, continuesName b = false ∧ isQuote b = false

theorem takeWhile_eq_nil_of_endsName (h : EndsName after) : after.takeWhile continuesName = [] := by
  cases after with
  | nil => rfl
  | cons b rest => exact List.takeWhile_cons_of_neg (by simp [(h b rfl).1])

theorem dropWhile_eq_self_of_endsName (h : EndsName after) : after.dropWhile continuesName = after := by
  cases after with
  | nil => rfl
  | cons b rest => exact List.dropWhile_cons_of_neg (by simp [(h b rfl).1])

theorem reaches_name (n : Identifier) (h : EndsName after) :
    (lx.reading (n.text ++ after)).Reaches
      ((lx.record ⟨.name, n.text, lx.opened.length, lx.line⟩).reading after) := by
  obtain ⟨b, rest, htext, hstarts⟩ := n.starts
  have htake : (n.text ++ after).takeWhile continuesName = n.text := by
    rw [List.takeWhile_append_of_pos n.continues, takeWhile_eq_nil_of_endsName h, List.append_nil]
  have hdrop : (n.text ++ after).dropWhile continuesName = after := by
    rw [List.dropWhile_append_of_pos n.continues, dropWhile_eq_self_of_endsName h]
  have hunquoted : after.head?.any isQuote = false := by
    cases after with
    | nil => rfl
    | cons c rest => exact (h c rfl).2
  refine @Lexer.Reaches.step _ _ b (rest ++ after) (by rw [Lexer.rest_reading, htext, List.cons_append]) ?_
  rw [step_eq, head_eq_name_iff.2 hstarts]
  simp only [Lexer.readName, Lexer.rest_reading, htake, hdrop, hunquoted, Bool.false_and,
    Bool.false_eq_true, if_false]
  rfl

/-! ## Strings -/

/-- What may stand directly before the opening quote. -/
def stringFronts : List Text :=
  List.map Text.ofString
    ["", "r", "R", "u", "U", "b", "B", "f", "F", "br", "bR", "Br", "BR", "rb", "rB", "Rb", "RB",
     "fr", "fR", "Fr", "FR", "rf", "rF", "Rf", "RF"]

theorem nil_mem_stringFronts : ([] : Text) ∈ stringFronts := List.mem_cons_self

theorem isQuote_doubleQuote : isQuote '"' = true := rfl

/-- A byte of a string, which may stand behind a backslash, and the quotes directly before it, of which
triple quotes allow two. -/
structure StringByte where
  quotes : Nat := 0
  escaped : Bool := false
  byte : UInt8

namespace StringByte

/-- The byte does not end the string. -/
structure Fits (p : StringByte) (quote : UInt8) (triple : Bool) : Prop where
  quotes_le : p.quotes ≤ if triple then 2 else 0
  plain : p.escaped = false → p.byte ≠ quote ∧ p.byte ≠ '\\' ∧ (triple = false → p.byte ≠ '\n')

/-- How the byte is written, after its quotes. -/
def spelling (p : StringByte) : Text := if p.escaped then [('\\' : UInt8), p.byte] else [p.byte]

def text (quote : UInt8) (p : StringByte) : Text := List.replicate p.quotes quote ++ p.spelling

/-- What the byte stands for, without its quotes. -/
def meaning (raw : Bool) (p : StringByte) : Text :=
  if raw || !p.escaped then p.spelling else if p.byte == '\n' then [] else Python.escaped p.byte

def value (raw : Bool) (quote : UInt8) (p : StringByte) : Text :=
  List.replicate p.quotes quote ++ p.meaning raw

def breaks (p : StringByte) : Nat := if p.byte == '\n' then 1 else 0

end StringByte

/-- A string, as it is written. -/
structure WrittenString where
  front : Text
  quote : UInt8
  triple : Bool
  body : List StringByte
  front_mem : front ∈ stringFronts
  isQuote_quote : isQuote quote = true
  fits : ∀ p ∈ body, p.Fits quote triple

namespace WrittenString

variable (s : WrittenString)

def raw : Bool := s.front.any fun b => b == 'r' || b == 'R'

/-- The quotes at either end. -/
def quotes : Text := List.replicate (if s.triple then 3 else 1) s.quote

def inner : Text := s.body.flatMap (StringByte.text s.quote)

def text : Text := s.front ++ (s.quotes ++ (s.inner ++ s.quotes))

def value : Text := s.body.flatMap (StringByte.value s.raw s.quote)

/-- The line breaks in the string. -/
def breaks : Nat := (s.body.map StringByte.breaks).sum

end WrittenString

/-- What follows a string does not go on with its quote. -/
def EndsString (quote : UInt8) (after : Text) : Prop := ∀ b ∈ after.head?, (b == quote) = false

section

variable {raw triple : Bool} {quote : UInt8} {p : StringByte}

theorem StringByte.exists_spelling (h : p.Fits quote triple) (hquote : isQuote quote = true) :
    ∃ b rest, p.spelling = b :: rest ∧ (b == quote) = false := by
  cases hescaped : p.escaped with
  | false => exact ⟨p.byte, [], by simp [spelling, hescaped], by simpa using (h.plain hescaped).1⟩
  | true => exact ⟨'\\', [p.byte], by simp [spelling, hescaped], ne_of_isQuote hquote (by decide)⟩

/-- A byte other than a quote, as it is written. -/
theorem stringBody?_spelling (h : p.Fits quote triple) (hquote : isQuote quote = true) (done : Text)
    (breaks : Nat) (rest : Text) :
    stringBody? raw triple quote done breaks (p.spelling ++ rest) =
      stringBody? raw triple quote ((p.meaning raw).reverse ++ done) (breaks + p.breaks) rest := by
  obtain ⟨quotes, escaped, b⟩ := p
  cases escaped with
  | true =>
    simp only [StringByte.spelling, StringByte.meaning, StringByte.breaks, if_true, Bool.not_true,
      Bool.or_false, List.cons_append, List.nil_append]
    cases hbreak : b == '\n' with
    | true =>
      obtain rfl := eq_of_beq hbreak
      rw [stringBody?.eq_def]
      simp only [ne_of_isQuote hquote (show isQuote '\\' = false by decide)]
      cases raw <;> rfl
    | false =>
      rw [stringBody?_escape hquote hbreak]
      cases raw <;> rfl
  | false =>
    obtain ⟨hne, hbackslash, hline⟩ := h.plain rfl
    simp only [StringByte.spelling, StringByte.meaning, StringByte.breaks, Bool.false_eq_true, if_false,
      Bool.not_false, Bool.or_true, if_true, List.cons_append, List.nil_append]
    rw [stringBody?.eq_def]
    cases hbreak : b == '\n' with
    | true =>
      cases triple with
      | true => simp [beq_eq_false_iff_ne.2 hne, hbreak]
      | false => exact absurd (eq_of_beq hbreak) (hline rfl)
    | false => simp [beq_eq_false_iff_ne.2 hne, hbreak, beq_eq_false_iff_ne.2 hbackslash]

theorem stringBody?_quote (hquote : isQuote quote = true) {rest : Text}
    (hrest : Text.startsWith rest [quote, quote] = false) (done : Text) (breaks : Nat) :
    stringBody? raw true quote done breaks (quote :: rest) =
      stringBody? raw true quote (quote :: done) breaks rest := by
  have hne (c : UInt8) (hc : isQuote c = false) : (quote == c) = false := by
    rw [BEq.comm]
    exact ne_of_isQuote hquote hc
  rw [stringBody?.eq_def]
  simp [hrest, hne '\n' (by decide), hne '\\' (by decide)]

theorem startsWith_quotes_of_ne {b : UInt8} (hb : (b == quote) = false) (rest : Text) :
    Text.startsWith (b :: rest) [quote, quote] = false ∧
      Text.startsWith (quote :: b :: rest) [quote, quote] = false := by
  rw [BEq.comm] at hb
  simp [Text.startsWith, Text.dropFront?, hb]

/-- Quotes that do not end the string are part of its value. -/
theorem stringBody?_quotes {n : Nat} (hn : n ≤ if triple then 2 else 0) (hquote : isQuote quote = true)
    {b : UInt8} (hb : (b == quote) = false) (done : Text) (breaks : Nat) (rest : Text) :
    stringBody? raw triple quote done breaks (List.replicate n quote ++ b :: rest) =
      stringBody? raw triple quote (List.replicate n quote ++ done) breaks (b :: rest) := by
  obtain ⟨hone, htwo⟩ := startsWith_quotes_of_ne hb rest
  cases triple with
  | false =>
    obtain rfl := Nat.le_zero.1 hn
    rfl
  | true =>
    have hn : n = 0 ∨ n = 1 ∨ n = 2 := by
      rw [if_pos rfl] at hn
      omega
    rcases hn with rfl | rfl | rfl
    · rfl
    · exact stringBody?_quote hquote hone done breaks
    · exact (stringBody?_quote hquote htwo done breaks).trans (stringBody?_quote hquote hone _ breaks)

theorem stringBody?_text (h : p.Fits quote triple) (hquote : isQuote quote = true) (done : Text)
    (breaks : Nat) (rest : Text) :
    stringBody? raw triple quote done breaks (p.text quote ++ rest) =
      stringBody? raw triple quote ((p.value raw quote).reverse ++ done) (breaks + p.breaks) rest := by
  obtain ⟨b, spelled, hspelling, hb⟩ := p.exists_spelling h hquote
  have hquotes := @stringBody?_quotes raw triple quote _ h.quotes_le hquote b hb done breaks (spelled ++ rest)
  rw [← List.cons_append, ← hspelling] at hquotes
  rw [StringByte.text, List.append_assoc, hquotes, stringBody?_spelling h hquote, StringByte.value,
    List.reverse_append, List.reverse_replicate, List.append_assoc]

end

namespace WrittenString

variable (s : WrittenString)

theorem stringBody?_inner (done : Text) (breaks : Nat) (rest : Text) :
    stringBody? s.raw s.triple s.quote done breaks (s.inner ++ rest) =
      stringBody? s.raw s.triple s.quote (s.value.reverse ++ done) (breaks + s.breaks) rest := by
  unfold inner value WrittenString.breaks
  generalize s.raw = raw
  obtain ⟨front, quote, triple, body, -, hquote, hfits⟩ := s
  dsimp only at hquote hfits ⊢
  induction body generalizing done breaks with
  | nil => rfl
  | cons p body ih =>
    have hrest := fun q hq => hfits q (List.mem_cons_of_mem p hq)
    simp only [List.flatMap_cons, List.map_cons, List.sum_cons, List.append_assoc, List.reverse_append]
    rw [stringBody?_text (hfits p List.mem_cons_self) hquote, ih _ _ hrest, Nat.add_assoc]

theorem stringBody?_quotes_end {after : Text} (done : Text) (breaks : Nat) :
    stringBody? s.raw s.triple s.quote done breaks (s.quotes ++ after) = some (done, breaks, after) := by
  unfold quotes
  cases s.triple with
  | false => simp [stringBody?.eq_def]
  | true => simp [stringBody?.eq_def, List.replicate, Text.startsWith, Text.dropFront?]

/-- The string at its first quote, with `after` behind it. -/
def opening (after : Text) : Opening :=
  ⟨s.front, s.quote, s.quotes.tail ++ (s.inner ++ (s.quotes ++ after))⟩

theorem text_append (after : Text) :
    s.text ++ after = s.front ++ s.quote :: (s.opening after).rest := by
  unfold text opening quotes
  cases s.triple <;> simp

theorem startsWith_inner {after : Text} (hafter : EndsString s.quote after) (h : s.triple = false) :
    Text.startsWith (s.inner ++ (s.quotes ++ after)) [s.quote, s.quote] = false := by
  have hquotes : s.quotes = [s.quote] := by simp [quotes, h]
  unfold inner
  rw [hquotes]
  cases hbody : s.body with
  | nil =>
    cases after with
    | nil => simp [Text.startsWith, Text.dropFront?]
    | cons b rest =>
      have hb := hafter b rfl
      rw [BEq.comm] at hb
      simp [Text.startsWith, Text.dropFront?, hb]
  | cons p body =>
    have hfits := s.fits p (hbody ▸ List.mem_cons_self)
    obtain ⟨b, spelled, hspelling, hb⟩ := p.exists_spelling hfits s.isQuote_quote
    have hnone : p.quotes = 0 := by simpa [h] using hfits.quotes_le
    simp only [List.flatMap_cons, StringByte.text, hnone, hspelling, List.replicate_zero,
      List.nil_append, List.cons_append]
    exact (startsWith_quotes_of_ne hb _).1

theorem triple_opening {after : Text} (hafter : EndsString s.quote after) :
    (s.opening after).triple = s.triple := by
  unfold Opening.triple opening
  cases h : s.triple with
  | false =>
    have hinner := s.startsWith_inner hafter h
    simpa [quotes, h] using hinner
  | true => simp [quotes, h, Text.startsWith, Text.dropFront?]

theorem body_opening {after : Text} (hafter : EndsString s.quote after) :
    (s.opening after).body = s.inner ++ (s.quotes ++ after) := by
  rw [Opening.body, s.triple_opening hafter]
  cases h : s.triple <;> simp [opening, quotes, h]

theorem front_spec : s.front = [] ∨ isStringFront s.front = true ∧
    (∃ b rest, s.front = b :: rest ∧ startsName b = true) ∧ ∀ b ∈ s.front, continuesName b = true := by
  have hall : ∀ f ∈ stringFronts, f = [] ∨ isStringFront f = true ∧ f.head?.any startsName = true ∧
      ∀ b ∈ f, continuesName b = true := by decide
  refine (hall s.front s.front_mem).imp_right fun h => ⟨h.1, ?_, h.2.2⟩
  cases hfront : s.front with
  | nil => simp [hfront] at h
  | cons b rest => exact ⟨b, rest, rfl, by simpa [hfront] using h.2.1⟩

theorem opening?_text (after : Text) : opening? (s.text ++ after) = some (s.opening after) := by
  rw [text_append]
  have hquote := s.isQuote_quote
  rcases s.front_spec with hfront | ⟨hstring, ⟨b, rest, hfront, hstarts⟩, hcontinues⟩
  · rw [hfront, List.nil_append, opening?_of_isQuote hquote, opening, hfront]
  · have hends : continuesName s.quote = false := by
      rcases isQuote_iff.1 hquote with h | h <;> rw [h] <;> rfl
    have happend : s.front ++ s.quote :: (s.opening after).rest =
        b :: (rest ++ s.quote :: (s.opening after).rest) := by rw [hfront, List.cons_append]
    rw [happend]
    refine (opening?_eq_some_of_startsName hstarts).2 ⟨?_, hstring, hquote, ?_⟩
    · rw [← happend, List.takeWhile_append_of_pos hcontinues,
        List.takeWhile_cons_of_neg (by simp [hends]), List.append_nil]
      rfl
    · rw [← happend, List.dropWhile_append_of_pos hcontinues,
        List.dropWhile_cons_of_neg (by simp [hends])]
      rfl

end WrittenString

/-- The state after a string, whose value is bound to what stands before it. -/
def Lexer.readWritten (lx : Lexer) (s : WrittenString) : Lexer :=
  { lx with line := lx.line + s.breaks }.literal lx.line false s.value

namespace Lexer

variable (s : WrittenString)

@[simp] theorem literals_readWritten :
    (lx.readWritten s).literals = ⟨s.value, lx.line, false, lx.binding⟩ :: lx.literals := rfl

@[simp] theorem line_readWritten : (lx.readWritten s).line = lx.line + s.breaks := rfl

@[simp] theorem opened_readWritten : (lx.readWritten s).opened = lx.opened := rfl

@[simp] theorem statement_readWritten :
    (lx.readWritten s).statement = ⟨.string, s.value, lx.opened.length, lx.line⟩ :: lx.statement := rfl

end Lexer

theorem reaches_string (lx : Lexer) (s : WrittenString) (hafter : EndsString s.quote after) :
    (lx.reading (s.text ++ after)).Reaches ((lx.readWritten s).reading after) := by
  have hopening := s.opening?_text after
  cases htext : s.text ++ after with
  | nil =>
    rw [htext] at hopening
    cases hopening
  | cons b rest =>
    refine .step rfl ?_
    rw [step_eq_readOpening rfl (htext ▸ hopening), Lexer.readOpening, s.triple_opening hafter,
      s.body_opening hafter]
    have hbody := s.stringBody?_inner [] 0 (s.quotes ++ after)
    rw [s.stringBody?_quotes_end] at hbody
    have hraw : (s.opening after).raw = s.raw := rfl
    have hquote : (s.opening after).quote = s.quote := rfl
    rw [hraw, hquote, hbody]
    simp only [List.append_nil, List.reverse_reverse, Nat.zero_add]
    rfl

/-! ## Bindings -/

/-- A literal behind a name and an equals sign is bound to the name, unless a colon stands before. -/
theorem binding_of_name (h : ∀ t ∈ lx.recent.head?, t.isOp ":" = false) (name : Text)
    (depth line depth' line' : Nat) :
    ((lx.record ⟨.name, name, depth, line⟩).record ⟨.op, "=", depth', line'⟩).binding = name := by
  have hequals : Token.isOp ⟨.op, "=", depth', line'⟩ "=" = true := rfl
  simp only [Lexer.binding, Lexer.record, Lexer.memory, List.take_succ_cons, hequals, if_true]
  cases hrecent : lx.recent with
  | nil => rfl
  | cons colon before =>
    have hcolon := h colon (by rw [hrecent]; rfl)
    have hname : (Kind.name != Kind.name) = false := rfl
    cases before <;> simp [hcolon, hname]

/-- A literal behind an operator and an equals sign is bound to nothing. -/
theorem binding_of_op (lx : Lexer) (op : Text) (depth line depth' line' : Nat) :
    ((lx.record ⟨.op, op, depth, line⟩).record ⟨.op, "=", depth', line'⟩).binding = [] := by
  have hequals : Token.isOp ⟨.op, "=", depth', line'⟩ "=" = true := rfl
  have hname : (Kind.op != Kind.name) = true := rfl
  simp [Lexer.binding, Lexer.record, Lexer.memory, hequals, hname]

/-- A literal behind a name that a colon precedes is bound to the name before the colon outside all
brackets, and to that behind it within. -/
theorem binding_of_colon (lx : Lexer) (target name : Text) (depth line : Nat) :
    ((((lx.record ⟨.name, target, depth, line⟩).record ⟨.op, ":", depth, line⟩).record
      ⟨.name, name, depth, line⟩).record ⟨.op, "=", depth, line⟩).binding =
        if depth = 0 then target else name := by
  have hequals : Token.isOp ⟨.op, "=", depth, line⟩ "=" = true := rfl
  have hcolon : Token.isOp ⟨.op, ":", depth, line⟩ ":" = true := rfl
  have hname : (Kind.name == Kind.name) = true := rfl
  simp [Lexer.binding, Lexer.record, Lexer.memory, hequals, hcolon, hname, bne]

end LiteralAudit.Python
