import LiteralAudit.Format
import LiteralAudit.Proofs.Json.Numeral

/-!
# Markup that is read back

A part of the grammar of XML 1.0 says which documents a text is, and which tree it stands for
(`Xml.IsDocument`). A tree is told by its tags and characters in order (`Xml.Node.tokens`), and the grammar
says how each of these may be spelled. So every text of it is well-formed: tags are balanced, no name of an
attribute occurs twice in a tag, and there is no character that XML does not have. Left out are comments,
processing instructions, sections, document types, tags of empty elements, white space that is not needed,
names beyond ASCII, and every character in a place where a reader must not leave it as it is.

`Xml.read?` gets the tree of every such text (`Xml.read?_of_isDocument`), so that there is only one.

* `Xml.writes_escape`: what is escaped stands for its characters, those that XML does not have being
  replaced, wherever it stands.
* `Xml.writes_leaf`: an element on one line is one, whatever its values and its text are.
-/

namespace LiteralAudit.Format.Xml

/-! ## Trees -/

/-- Names with values. -/
abbrev Attributes := List (List Char × List Char)

/-- What stands in an element. -/
inductive Node where
  | char (c : Char)
  | element (name : List Char) (attributes : Attributes) (content : List Node)

/-- A character between tags, or a tag. -/
inductive Token where
  | char (c : Char)
  | start (name : List Char) (attributes : Attributes)
  | stop (name : List Char)

mutual

/-- The characters and tags of a node. -/
def Node.tokens : Node → List Token
  | .char c => [.char c]
  | .element name attributes content => .start name attributes :: (tokensOf content ++ [.stop name])

def tokensOf : List Node → List Token
  | [] => []
  | n :: rest => n.tokens ++ tokensOf rest

end

theorem tokensOf_append (ns ms : List Node) : tokensOf (ns ++ ms) = tokensOf ns ++ tokensOf ms := by
  induction ns with
  | nil => rfl
  | cons n ns ih => rw [List.cons_append, tokensOf, tokensOf, ih, List.append_assoc]

theorem tokensOf_chars (cs : List Char) : tokensOf (cs.map .char) = cs.map .char := by
  induction cs with
  | nil => rfl
  | cons c cs ih => rw [List.map_cons, tokensOf, ih, Node.tokens, List.map_cons, List.singleton_append]

theorem tokensOf_flatMap {α : Type} (l : List α) (f : α → List Node) :
    tokensOf (l.flatMap f) = l.flatMap fun a => tokensOf (f a) := by
  induction l with
  | nil => rfl
  | cons a l ih => rw [List.flatMap_cons, tokensOf_append, ih, List.flatMap_cons]

/-! ## The grammar -/

/-- White space, but for the carriage return, which a reader does not leave as it is. -/
def isSpace (c : Char) : Bool := c == ' ' || c == '\t' || c == '\n'

def isNameStart (c : Char) : Bool := c.isAlpha || c == '_' || c == ':'

def isNameChar (c : Char) : Bool := isNameStart c || c.isDigit || c == '-' || c == '.'

def isName : List Char → Bool
  | [] => false
  | c :: cs => isNameStart c && cs.all isNameChar

/-- The character with a number, if it is one that XML has. -/
def charOf? (n : Nat) : Option Char :=
  if n.isValidChar && isAllowed (Char.ofNat n) then some (Char.ofNat n) else none

/-- The number that digits of a base write, at least one. -/
def number? (base : Nat) (digits : List Char) : Option Nat :=
  if digits.isEmpty then none else Number.readDigits? base (Text.ofChars digits)

/-- The character that is meant by what stands between `&` and `;`. -/
def referent? : List Char → Option Char
  | ['l', 't'] => some '<'
  | ['g', 't'] => some '>'
  | ['a', 'm', 'p'] => some '&'
  | ['a', 'p', 'o', 's'] => some '\''
  | ['q', 'u', 'o', 't'] => some '"'
  | '#' :: 'x' :: digits => (number? 16 digits).bind charOf?
  | '#' :: digits => (number? 10 digits).bind charOf?
  | _ => none

/-- What must not stand as it is between tags. -/
def barredInText : List Char := ['<', '&', '>', '\r']

/-- What must not stand as it is between two quotes. -/
def barredInValue (quote : Char) : List Char := ['<', '&', '\t', '\n', '\r', quote]

/-- How a character may be spelled where some must not stand as they are. -/
inductive SpellsChar (barred : List Char) : List Char → Char → Prop
  | plain {c : Char} : isAllowed c = true → c ∉ barred → SpellsChar barred [c] c
  | reference {r : List Char} {c : Char} : ';' ∉ r → referent? r = some c →
      SpellsChar barred ('&' :: (r ++ [';'])) c

/-- Spellings one after another. -/
inductive Sequence {α : Type} (Spells : List Char → α → Prop) : List Char → List α → Prop
  | nil : Sequence Spells [] []
  | cons {w t : List Char} {x : α} {xs : List α} : Spells w x → Sequence Spells t xs →
      Sequence Spells (w ++ t) (x :: xs)

/-- How an attribute with the white space before it may be spelled. -/
inductive SpellsAttribute : List Char → List Char × List Char → Prop
  | mk {space name w value : List Char} {quote : Char} : space ≠ [] → (∀ c ∈ space, isSpace c = true) →
      isName name = true → quote = '"' ∨ quote = '\'' →
      Sequence (SpellsChar (barredInValue quote)) w value →
      SpellsAttribute (space ++ (name ++ '=' :: quote :: (w ++ [quote]))) (name, value)

inductive SpellsToken : List Char → Token → Prop
  | char {w : List Char} {c : Char} : SpellsChar barredInText w c → SpellsToken w (.char c)
  | start {name w : List Char} {attributes : Attributes} : isName name = true →
      (attributes.map (·.1)).Nodup → Sequence SpellsAttribute w attributes →
      SpellsToken ('<' :: (name ++ (w ++ ['>']))) (.start name attributes)
  | stop {name : List Char} : isName name = true →
      SpellsToken ('<' :: '/' :: (name ++ ['>'])) (.stop name)

/-- What a document begins with. -/
def declaration : List Char := "<?xml version=\"1.0\" encoding=\"UTF-8\"?>".toList

/-- A text is a document with a root: an element behind the declaration, with white space around it. -/
def IsDocument (t : Text) (root : Node) : Prop :=
  ∃ front body back name attributes content, t = Text.ofChars (declaration ++ (front ++ body ++ back)) ∧
    (∀ c ∈ front, isSpace c = true) ∧ (∀ c ∈ back, isSpace c = true) ∧
    root = .element name attributes content ∧ Sequence SpellsToken body root.tokens

/-! ## The reader -/

/-- A start tag as far as it was read, with the last attribute first. -/
structure Tag where
  name : List Char
  attributes : Attributes := []

/-- Where a reader stands. What it has read of a word has the last character first. -/
inductive Place where
  | content
  /-- Behind `&`. -/
  | reference (r : List Char)
  /-- Behind `<`. -/
  | tag
  | start (r : List Char)
  | stop (r : List Char)
  /-- In the white space before an attribute. -/
  | gap (t : Tag)
  | attribute (t : Tag) (r : List Char)
  | equals (t : Tag) (name : List Char)
  | value (t : Tag) (name : List Char) (quote : Char) (r : List Char)
  /-- Behind `&` in a value. -/
  | valueReference (t : Tag) (name : List Char) (quote : Char) (r reference : List Char)
  /-- Behind the quote that ends a value. -/
  | closed (t : Tag)

/-- What was read so far, the last token first. -/
structure Lexer where
  place : Place := .content
  tokens : List Token := []

namespace Lexer

def goTo (s : Lexer) (place : Place) : Lexer := { s with place }

def take (s : Lexer) (x : Token) : Lexer := ⟨.content, x :: s.tokens⟩

/-- Goes on in a start tag, behind its name or an attribute. -/
def goOn? (s : Lexer) (t : Tag) (c : Char) : Option Lexer :=
  if isSpace c then some (s.goTo (.gap t))
  else if c == '>' && decide (t.attributes.reverse.map (·.1)).Nodup then
    some (s.take (.start t.name t.attributes.reverse))
  else none

/-- Reads a character; none where it must not stand. -/
def step (s : Lexer) (c : Char) : Option Lexer :=
  match s.place with
  | .content =>
    if c == '<' then some (s.goTo .tag)
    else if c == '&' then some (s.goTo (.reference []))
    else if isAllowed c && !barredInText.contains c then some (s.take (.char c))
    else none
  | .reference r =>
    if c == ';' then (referent? r.reverse).map fun c => s.take (.char c)
    else some (s.goTo (.reference (c :: r)))
  | .tag => some (s.goTo (if c == '/' then .stop [] else .start [c]))
  | .start r =>
    if isNameChar c then some (s.goTo (.start (c :: r)))
    else if isName r.reverse then s.goOn? { name := r.reverse } c
    else none
  | .stop r =>
    if isNameChar c then some (s.goTo (.stop (c :: r)))
    else if c == '>' && isName r.reverse then some (s.take (.stop r.reverse))
    else none
  | .gap t => some (if isSpace c then s else s.goTo (.attribute t [c]))
  | .attribute t r =>
    if isNameChar c then some (s.goTo (.attribute t (c :: r)))
    else if c == '=' && isName r.reverse then some (s.goTo (.equals t r.reverse))
    else none
  | .equals t name =>
    if c == '"' || c == '\'' then some (s.goTo (.value t name c [])) else none
  | .value t name quote r =>
    if c == quote then
      some (s.goTo (.closed { t with attributes := (name, r.reverse) :: t.attributes }))
    else if c == '&' then some (s.goTo (.valueReference t name quote r []))
    else if isAllowed c && !(barredInValue quote).contains c then
      some (s.goTo (.value t name quote (c :: r)))
    else none
  | .valueReference t name quote r reference =>
    if c == ';' then (referent? reference.reverse).map fun c => s.goTo (.value t name quote (c :: r))
    else some (s.goTo (.valueReference t name quote r (c :: reference)))
  | .closed t => s.goOn? t c

/-- The tokens at the end of a text; none inside of one. -/
def finish? (s : Lexer) : Option (List Token) :=
  match s.place with
  | .content => some s.tokens.reverse
  | _ => none

end Lexer

/-- The tags and characters that a text stands for. -/
def lex? (t : List Char) : Option (List Token) := (t.foldlM Lexer.step {}).bind Lexer.finish?

/-- The elements that are open, the innermost first and each with what stands before it, and what stands in
the innermost one so far. The last node comes first. -/
structure Builder where
  opened : List (List Char × Attributes × List Node) := []
  content : List Node := []

def Builder.step (s : Builder) : Token → Option Builder
  | .char c => some { s with content := .char c :: s.content }
  | .start name attributes => some ⟨(name, attributes, s.content) :: s.opened, []⟩
  | .stop name =>
    match s.opened with
    | [] => none
    | (opened, attributes, before) :: rest =>
      if opened == name then some ⟨rest, .element name attributes s.content.reverse :: before⟩ else none

/-- The one element that tags and characters make up. -/
def build? (tokens : List Token) : Option Node :=
  match tokens.foldlM Builder.step {} with
  | some ⟨[], [.element name attributes content]⟩ => some (.element name attributes content)
  | _ => none

/-- The root of the document that a text is. -/
def read? (t : Text) : Option Node :=
  if t.isUtf8 then
    (t.chars.dropPrefix? declaration).bind fun rest =>
      (lex? ((rest.dropWhile isSpace).rdropWhile isSpace)).bind build?
  else none

/-! ## Every document is read -/

section Sequence

variable {α σ : Type} {Spells : List Char → α → Prop} {w t : List Char} {xs ys : List α}

theorem Sequence.append (hw : Sequence Spells w xs) (ht : Sequence Spells t ys) :
    Sequence Spells (w ++ t) (xs ++ ys) := by
  induction hw with
  | nil => exact ht
  | cons hspells _ ih =>
    rw [List.append_assoc]
    exact .cons hspells ih

theorem Sequence.exists_append (h : Sequence Spells w (xs ++ ys)) :
    ∃ u v, w = u ++ v ∧ Sequence Spells u xs ∧ Sequence Spells v ys := by
  induction xs generalizing w with
  | nil => exact ⟨[], w, rfl, .nil, h⟩
  | cons x xs ih =>
    obtain _ | ⟨hx, hrest⟩ := h
    obtain ⟨u, v, rfl, hu, hv⟩ := ih hrest
    exact ⟨_, v, (List.append_assoc ..).symm, .cons hx hu, hv⟩

theorem Sequence.singleton {x : α} (h : Spells w x) : Sequence Spells w [x] := by
  have hone := Sequence.cons h .nil
  rwa [List.append_nil] at hone

/-- A reader that takes each of the spellings takes them one after another. -/
theorem Sequence.foldlM_eq (step : σ → Char → Option σ) (state : List α → σ)
    (hstep : ∀ {w x}, Spells w x → ∀ ys, w.foldlM step (state ys) = some (state (x :: ys)))
    (h : Sequence Spells w xs) (ys : List α) :
    w.foldlM step (state ys) = some (state (xs.reverse ++ ys)) := by
  induction h generalizing ys with
  | nil => rfl
  | @cons w t x xs hspells _ ih =>
    rw [List.foldlM_append, hstep hspells, List.reverse_cons, List.append_assoc]
    exact ih (x :: ys)

/-- A reader that keeps each of some characters keeps them all. -/
theorem foldlM_of_kept (step : σ → Char → Option σ) (state : List Char → σ) {cs : List Char}
    (h : ∀ c ∈ cs, ∀ r, step (state r) c = some (state (c :: r))) (r : List Char) :
    cs.foldlM step (state r) = some (state (cs.reverse ++ r)) := by
  induction cs generalizing r with
  | nil => rfl
  | cons c cs ih =>
    rw [List.foldlM_cons, h c List.mem_cons_self, List.reverse_cons, List.append_assoc]
    exact ih (fun d hd => h d (List.mem_cons_of_mem c hd)) (c :: r)

end Sequence

theorem exists_cons_of_isName {name : List Char} (h : isName name = true) :
    ∃ c cs, name = c :: cs ∧ isNameStart c = true ∧ ∀ d ∈ cs, isNameChar d = true := by
  cases name with
  | nil => cases h
  | cons c cs =>
    rw [isName, Bool.and_eq_true, List.all_eq_true] at h
    exact ⟨c, cs, rfl, h.1, h.2⟩

section Space

variable {c : Char}

theorem eq_of_isSpace (h : isSpace c = true) : c = ' ' ∨ c = '\t' ∨ c = '\n' := by
  simpa only [isSpace, Bool.or_eq_true, beq_iff_eq, or_assoc] using h

theorem isNameChar_of_isSpace (h : isSpace c = true) : isNameChar c = false := by
  obtain rfl | rfl | rfl := eq_of_isSpace h <;> decide

theorem isSpace_of_isNameStart (h : isNameStart c = true) : isSpace c = false := by
  rw [Bool.eq_false_iff]
  intro hspace
  have hnot := isNameChar_of_isSpace hspace
  rw [isNameChar, h] at hnot
  cases hnot

/-- White space between tags stands for itself. -/
theorem spellsChar_of_isSpace (h : isSpace c = true) : SpellsChar barredInText [c] c := by
  obtain rfl | rfl | rfl := eq_of_isSpace h <;> exact .plain (by decide) (by decide)

end Space

namespace Lexer

variable {ts : List Token} {w : List Char} {c : Char}

theorem foldlM_of_spells_text (h : SpellsChar barredInText w c) (ts : List Token) :
    w.foldlM step ⟨.content, ts⟩ = some ⟨.content, .char c :: ts⟩ := by
  cases h with
  | plain hallowed hbarred =>
    have hnot : c ≠ '<' ∧ c ≠ '&' := by
      simp only [barredInText, List.mem_cons, not_or] at hbarred
      exact ⟨hbarred.1, hbarred.2.1⟩
    simp [step, take, hallowed, hbarred, hnot]
  | @reference r c hr hc =>
    have hkept := foldlM_of_kept step (fun r => ⟨.reference r, ts⟩)
      (fun d (hd : d ∈ r) r => by simp [step, goTo, ne_of_mem_of_not_mem hd hr]) []
    show (r ++ [';']).foldlM step ⟨.reference [], ts⟩ = _
    rw [List.foldlM_append, hkept]
    simp [step, take, hc]

section Tags

variable {t : Tag} {name : List Char} {quote : Char}

theorem foldlM_of_spells_value (hquote : quote ≠ '&') (h : SpellsChar (barredInValue quote) w c)
    (r : List Char) :
    w.foldlM step ⟨.value t name quote r, ts⟩ = some ⟨.value t name quote (c :: r), ts⟩ := by
  cases h with
  | plain hallowed hbarred =>
    have hnot : c ≠ quote ∧ c ≠ '&' := by
      simp only [barredInValue, List.mem_cons, not_or] at hbarred
      exact ⟨hbarred.2.2.2.2.2.1, hbarred.2.1⟩
    simp [step, goTo, hallowed, hbarred, hnot]
  | @reference ref c href hc =>
    have hkept := foldlM_of_kept step (fun ref => ⟨.valueReference t name quote r ref, ts⟩)
      (fun d (hd : d ∈ ref) ref => by simp [step, goTo, ne_of_mem_of_not_mem hd href]) []
    have hstart : step ⟨.value t name quote r, ts⟩ '&' = some ⟨.valueReference t name quote r [], ts⟩ := by
      simp [step, goTo, hquote.symm]
    rw [List.foldlM_cons, hstart]
    show (ref ++ [';']).foldlM step ⟨.valueReference t name quote r [], ts⟩ = _
    rw [List.foldlM_append, hkept]
    simp [step, goTo, hc]

/-- White space before an attribute. -/
theorem foldlM_space (h : ∀ c ∈ w, isSpace c = true) :
    w.foldlM step ⟨.gap t, ts⟩ = some ⟨.gap t, ts⟩ := by
  induction w with
  | nil => rfl
  | cons c w ih =>
    have hc : step ⟨.gap t, ts⟩ c = some ⟨.gap t, ts⟩ := by
      simp [step, h c List.mem_cons_self]
    rw [List.foldlM_cons, hc]
    exact ih fun d hd => h d (List.mem_cons_of_mem c hd)

/-- Behind the name of a start tag and some attributes, the last one first. -/
def behind (name : List Char) : Attributes → Place
  | [] => .start name.reverse
  | a :: as => .closed ⟨name, a :: as⟩

/-- What is no part of the name ends it, and an attribute is ended by its quote. -/
theorem step_behind (hname : isName name = true) (hc : isNameChar c = false) (as : Attributes) :
    step ⟨behind name as, ts⟩ c = goOn? ⟨behind name as, ts⟩ ⟨name, as⟩ c := by
  cases as with
  | nil => simp [behind, step, hname, hc]
  | cons a as => rfl

theorem foldlM_of_spells_attribute {a : List Char × List Char} (hname : isName name = true)
    (h : SpellsAttribute w a) (as : Attributes) :
    w.foldlM step ⟨behind name as, ts⟩ = some ⟨behind name (a :: as), ts⟩ := by
  obtain @⟨space, key, w, value, quote, hne, hspace, hkey, hquote, hvalue⟩ := h
  obtain ⟨c, cs, rfl, hc, hcs⟩ := exists_cons_of_isName hkey
  obtain ⟨b, space, rfl⟩ := List.exists_cons_of_ne_nil hne
  have hb := hspace b List.mem_cons_self
  -- From place to place: the white space, the name, the equals sign, and the value with its quotes.
  have hgap : step ⟨behind name as, ts⟩ b = some ⟨.gap ⟨name, as⟩, ts⟩ := by
    rw [step_behind hname (isNameChar_of_isSpace hb), goOn?, if_pos hb]
    rfl
  have hstart : step ⟨.gap ⟨name, as⟩, ts⟩ c = some ⟨.attribute ⟨name, as⟩ [c], ts⟩ := by
    simp [step, goTo, isSpace_of_isNameStart hc]
  have hkept := foldlM_of_kept step (fun r => ⟨.attribute ⟨name, as⟩ r, ts⟩)
    (fun d (hd : d ∈ cs) r => by simp [step, goTo, hcs d hd]) [c]
  have hequals : step ⟨.attribute ⟨name, as⟩ (cs.reverse ++ [c]), ts⟩ '=' =
      some ⟨.equals ⟨name, as⟩ (c :: cs), ts⟩ := by
    have hnot : isNameChar '=' = false := by decide
    simp [step, goTo, hnot, hkey]
  have hopen : step ⟨.equals ⟨name, as⟩ (c :: cs), ts⟩ quote =
      some ⟨.value ⟨name, as⟩ (c :: cs) quote [], ts⟩ := by
    obtain rfl | rfl := hquote <;> rfl
  have hamp : quote ≠ '&' := by
    obtain rfl | rfl := hquote <;> decide
  have hread := hvalue.foldlM_eq step (fun r => ⟨.value ⟨name, as⟩ (c :: cs) quote r, ts⟩)
    (foldlM_of_spells_value hamp) []
  have hclose : step ⟨.value ⟨name, as⟩ (c :: cs) quote value.reverse, ts⟩ quote =
      some ⟨behind name ((c :: cs, value) :: as), ts⟩ := by
    simp [step, goTo, behind]
  rw [List.append_nil] at hread
  simp only [List.foldlM_append, List.foldlM_cons, List.foldlM_nil, hgap, hstart, hkept, hequals, hopen,
    hread, hclose, foldlM_space fun d hd => hspace d (List.mem_cons_of_mem b hd), Option.bind_eq_bind,
    Option.bind_some, Option.pure_def]

end Tags

theorem foldlM_of_spellsToken {x : Token} (h : SpellsToken w x) (ts : List Token) :
    w.foldlM step ⟨.content, ts⟩ = some ⟨.content, x :: ts⟩ := by
  cases h with
  | char h => exact foldlM_of_spells_text h ts
  | @start name w as hname hnodup has =>
    obtain ⟨c, cs, rfl, hc, hcs⟩ := exists_cons_of_isName hname
    have hne : c ≠ '/' := by
      rintro rfl
      exact absurd hc (by decide)
    have hstart : step ⟨.tag, ts⟩ c = some ⟨.start [c], ts⟩ := by simp [step, goTo, hne]
    have hkept := foldlM_of_kept step (fun r => ⟨.start r, ts⟩)
      (fun d (hd : d ∈ cs) r => by simp [step, goTo, hcs d hd]) [c]
    have hread := has.foldlM_eq step (fun as => ⟨behind (c :: cs) as, ts⟩)
      (foldlM_of_spells_attribute hname) []
    have hend : step ⟨behind (c :: cs) as.reverse, ts⟩ '>' =
        some ⟨.content, .start (c :: cs) as :: ts⟩ := by
      rw [step_behind hname (by decide)]
      simp [goOn?, isSpace, take, hnodup]
    show (c :: (cs ++ (w ++ ['>']))).foldlM step ⟨.tag, ts⟩ = _
    rw [behind, List.reverse_cons, List.append_nil] at hread
    simp only [List.foldlM_append, List.foldlM_cons, List.foldlM_nil, hstart, hkept, hread, hend,
      Option.bind_eq_bind, Option.bind_some, Option.pure_def]
  | @stop name hname =>
    obtain ⟨c, cs, rfl, hc, hcs⟩ := exists_cons_of_isName hname
    have hchars : ∀ d ∈ c :: cs, isNameChar d = true := by
      intro d hd
      obtain rfl | hd := List.mem_cons.1 hd
      · rw [isNameChar, hc]
        rfl
      · exact hcs d hd
    have hkept := foldlM_of_kept step (fun r => ⟨.stop r, ts⟩)
      (fun d (hd : d ∈ c :: cs) r => by simp [step, goTo, hchars d hd]) []
    have hend : step ⟨.stop ((c :: cs).reverse ++ []), ts⟩ '>' =
        some ⟨.content, .stop (c :: cs) :: ts⟩ := by
      have hnot : isNameChar '>' = false := by decide
      simp [step, take, hnot, hname]
    show ((c :: cs) ++ ['>']).foldlM step ⟨.stop [], ts⟩ = _
    rw [List.foldlM_append, hkept]
    show (List.foldlM step ⟨.stop ((c :: cs).reverse ++ []), ts⟩ ['>']) = _
    rw [List.foldlM_cons, hend]
    rfl

end Lexer

theorem lex?_of_sequence {w : List Char} {tokens : List Token} (h : Sequence SpellsToken w tokens) :
    lex? w = some tokens := by
  have hread := h.foldlM_eq Lexer.step (fun ts => ⟨.content, ts⟩) Lexer.foldlM_of_spellsToken []
  rw [lex?, hread]
  simp [Lexer.finish?]

mutual

/-- The tokens of a node are put together to the node, whatever is open around it. -/
theorem Node.foldlM_tokens (n : Node) (opened : List (List Char × Attributes × List Node))
    (content : List Node) :
    n.tokens.foldlM Builder.step ⟨opened, content⟩ = some ⟨opened, n :: content⟩ := by
  cases n with
  | char c => rfl
  | element name attributes inner =>
    rw [Node.tokens, List.foldlM_cons]
    show List.foldlM Builder.step ⟨(name, attributes, content) :: opened, []⟩ _ = _
    rw [List.foldlM_append, foldlM_tokensOf inner]
    simp [Builder.step]

theorem foldlM_tokensOf (ns : List Node) (opened : List (List Char × Attributes × List Node))
    (content : List Node) :
    (tokensOf ns).foldlM Builder.step ⟨opened, content⟩ = some ⟨opened, ns.reverse ++ content⟩ := by
  cases ns with
  | nil => rfl
  | cons n ns =>
    rw [tokensOf, List.foldlM_append, n.foldlM_tokens]
    show List.foldlM Builder.step ⟨opened, n :: content⟩ _ = _
    rw [foldlM_tokensOf ns]
    simp

end

theorem build?_tokens (name : List Char) (attributes : Attributes) (content : List Node) :
    build? (Node.element name attributes content).tokens = some (.element name attributes content) := by
  rw [build?, Node.foldlM_tokens]

/-- An element begins with `<` and ends with `>`, so that white space around it can be told from it. -/
theorem exists_of_spells_element {w name : List Char} {attributes : Attributes} {content : List Node}
    (h : Sequence SpellsToken w (Node.element name attributes content).tokens) :
    ∃ inner, w = '<' :: (inner ++ ['>']) := by
  rw [Node.tokens] at h
  obtain _ | @⟨first, rest, -, -, hfirst, hrest⟩ := h
  obtain ⟨middle, last, rfl, -, hlast⟩ := hrest.exists_append
  obtain _ | @⟨last, none, -, -, hlast, hnone⟩ := hlast
  obtain _ | _ := hnone
  obtain _ | @⟨_, w⟩ | _ := hfirst
  obtain _ | _ | _ := hlast
  refine ⟨name ++ (w ++ '>' :: (middle ++ '<' :: '/' :: name)), ?_⟩
  simp

theorem read?_of_isDocument {t : Text} {root : Node} (h : IsDocument t root) : read? t = some root := by
  obtain ⟨front, body, back, name, attributes, content, rfl, hfront, hback, rfl, hbody⟩ := h
  obtain ⟨inner, hinner⟩ := exists_of_spells_element hbody
  -- An element begins and ends with a character that is no white space.
  have htrimmed : ((front ++ body ++ back).dropWhile isSpace).rdropWhile isSpace = body := by
    have hfirst : isSpace '<' = false := by decide
    have hlast : isSpace '>' = false := by decide
    rw [List.append_assoc, List.dropWhile_append_of_pos hfront, hinner, List.rdropWhile]
    have hback' : ∀ c ∈ back.reverse, isSpace c = true := fun c hc => hback c (List.mem_reverse.1 hc)
    simp [List.dropWhile_append_of_pos hback', hfirst, hlast]
  rw [read?, if_pos (Text.isUtf8_ofChars _), Text.chars_ofChars,
    List.dropPrefix?_append_of_beq _ (beq_self_eq_true _), Option.bind_some, htrimmed,
    lex?_of_sequence hbody, Option.bind_some, build?_tokens]

/-- A text is a document with one root at most. -/
theorem IsDocument.unique {t : Text} {root other : Node} (h : IsDocument t root) (h' : IsDocument t other) :
    other = root :=
  Option.some.inj ((read?_of_isDocument h').symm.trans (read?_of_isDocument h))

/-! ## What is written stands for its tree -/

/-- A character, or U+FFFD for one that XML does not have. -/
def carriedChar (c : Char) : Char := if isAllowed c then c else Rune.replacement

/-- The characters of a text as XML carries them. -/
def carried (t : Text) : List Char := t.chars.map carriedChar

/-- The characters that are escaped although XML has them. -/
def escaped : List Char := ['"', '\'', '&', '<', '>', '\t', '\n', '\r']

theorem exists_spells_reference {barred : List Char} {s : String} {r : List Char} {c : Char}
    (hs : s.toList = '&' :: (r ++ [';'])) (hr : ';' ∉ r) (hc : referent? r = some c)
    (hcarried : carriedChar c = c) :
    ∃ w, Text.ofString s = Text.ofChars w ∧ SpellsChar barred w (carriedChar c) := by
  refine ⟨'&' :: (r ++ [';']), ?_, ?_⟩
  · rw [Text.ofString_eq_ofChars, hs]
  · rw [hcarried]
    exact .reference hr hc

/-- An escaped character may stand wherever characters of markup are barred. -/
theorem exists_spells_escapeChar {barred : List Char} (h : barred ⊆ escaped) (c : Char) :
    ∃ w, escapeChar c = Text.ofChars w ∧ SpellsChar barred w (carriedChar c) := by
  unfold escapeChar
  split
  case h_1 => exact exists_spells_reference (r := "#34".toList) rfl (by decide) (by decide) (by decide)
  case h_2 => exact exists_spells_reference (r := "#39".toList) rfl (by decide) (by decide) (by decide)
  case h_3 => exact exists_spells_reference (r := "amp".toList) rfl (by decide) (by decide) (by decide)
  case h_4 => exact exists_spells_reference (r := "lt".toList) rfl (by decide) (by decide) (by decide)
  case h_5 => exact exists_spells_reference (r := "gt".toList) rfl (by decide) (by decide) (by decide)
  case h_6 => exact exists_spells_reference (r := "#x9".toList) rfl (by decide) (by decide) (by decide)
  case h_7 => exact exists_spells_reference (r := "#xA".toList) rfl (by decide) (by decide) (by decide)
  case h_8 => exact exists_spells_reference (r := "#xD".toList) rfl (by decide) (by decide) (by decide)
  case h_9 =>
    have hnot : c ∉ escaped := by simp_all [escaped]
    cases hallowed : isAllowed c with
    | true =>
      refine ⟨[c], by simp [Text.ofChars, Text.ofChar], ?_⟩
      rw [carriedChar, if_pos hallowed]
      exact .plain hallowed fun hc => hnot (h hc)
    | false =>
      refine ⟨[Rune.replacement], by rw [if_neg Bool.false_ne_true]; decide, ?_⟩
      rw [carriedChar, hallowed]
      exact .plain (by decide) fun hc => absurd (h hc) (by decide)

/-- A text is written as spellings, one after another. -/
def Writes {α : Type} (Spells : List Char → α → Prop) (t : Text) (xs : List α) : Prop :=
  ∃ w, t = Text.ofChars w ∧ Sequence Spells w xs

section Writes

variable {α β : Type} {Spells : List Char → α → Prop} {s t : Text} {xs ys : List α}

theorem Writes.append (hs : Writes Spells s xs) (ht : Writes Spells t ys) :
    Writes Spells (s ++ t) (xs ++ ys) := by
  obtain ⟨v, rfl, hv⟩ := hs
  obtain ⟨w, rfl, hw⟩ := ht
  exact ⟨v ++ w, (Text.ofChars_append v w).symm, hv.append hw⟩

theorem Writes.flatMap {write : β → Text} {tokens : β → List α} {l : List β}
    (h : ∀ b ∈ l, Writes Spells (write b) (tokens b)) :
    Writes Spells (l.flatMap write) (l.flatMap tokens) := by
  induction l with
  | nil => exact ⟨[], rfl, .nil⟩
  | cons b l ih =>
    exact (h b List.mem_cons_self).append (ih fun b hb => h b (List.mem_cons_of_mem _ hb))

theorem Writes.map {Spells' : List Char → β → Prop} {f : α → β} (hf : ∀ w x, Spells w x → Spells' w (f x))
    (h : Writes Spells t xs) : Writes Spells' t (xs.map f) := by
  obtain ⟨w, rfl, hw⟩ := h
  refine ⟨w, rfl, ?_⟩
  induction hw with
  | nil => exact .nil
  | cons hx _ ih => exact .cons (hf _ _ hx) ih

end Writes

/-- What is escaped stands for what XML carries of it. -/
theorem writes_escape (barred : List Char) (h : barred ⊆ escaped) (t : Text) :
    Writes (SpellsChar barred) (escape t) (carried t) := by
  rw [carried, List.map_eq_flatMap]
  refine .flatMap fun c _ => ?_
  obtain ⟨w, hw, hspells⟩ := exists_spells_escapeChar h c
  exact ⟨w, hw, .singleton hspells⟩

theorem writes_text (t : Text) : Writes SpellsToken (escape t) ((carried t).map .char) :=
  (writes_escape barredInText (by decide) t).map fun _ _ => .char

/-- Attributes as they are carried. -/
def carriedAttributes (as : List (String × Text)) : Attributes := as.map fun a => (a.1.toList, carried a.2)

theorem writes_attributes {as : List (String × Text)} (h : ∀ a ∈ as, isName a.1.toList = true) :
    Writes SpellsAttribute (attributes as) (carriedAttributes as) := by
  rw [carriedAttributes, List.map_eq_flatMap]
  refine .flatMap fun a ha => ?_
  obtain ⟨w, hw, hvalue⟩ := writes_escape (barredInValue '"') (by decide) a.2
  have hspells : SpellsAttribute ([' '] ++ (a.1.toList ++ '=' :: '"' :: (w ++ ['"'])))
      (a.1.toList, carried a.2) :=
    .mk (List.cons_ne_nil _ _) (by simp [isSpace]) (h a ha) (.inl rfl) hvalue
  refine ⟨_, ?_, .singleton hspells⟩
  have hequals : Text.ofString "=\"" = Text.ofChars ['=', '"'] := Text.ofString_eq_ofChars _
  have hquote : Text.ofString "\"" = Text.ofChars ['"'] := Text.ofString_eq_ofChars _
  have hblank : Text.ofString " " = Text.ofChars [' '] := Text.ofString_eq_ofChars _
  simp only [hequals, hquote, hblank, hw, Text.ofString_eq_ofChars, ← Text.ofChars_append, List.append_assoc]
  rfl

theorem writes_space {s : String} (h : s.toList.all isSpace = true) :
    Writes SpellsToken (Text.ofString s) (s.toList.map .char) := by
  rw [Text.ofString_eq_ofChars]
  refine ⟨s.toList, rfl, ?_⟩
  rw [List.all_eq_true] at h
  generalize s.toList = cs at h
  induction cs with
  | nil => exact .nil
  | cons c cs ih =>
    exact .cons (.char (spellsChar_of_isSpace (h c List.mem_cons_self)))
      (ih fun d hd => h d (List.mem_cons_of_mem c hd))

/-- A tag may have this name and attributes of these names. -/
def isTag (name : String) (attributeNames : List String) : Bool :=
  isName name.toList && attributeNames.all (fun n => isName n.toList) && decide attributeNames.Nodup

/-- An element around what is written as its content. -/
def element (name : String) (as : List (String × Text)) (t : Text) : Text :=
  "<" ++ Text.ofString name ++ attributes as ++ ">" ++ t ++ "</" ++ Text.ofString name ++ ">"

section Element

variable {name : String} {as : List (String × Text)} (h : isTag name (as.map (·.1)) = true)

include h

theorem writes_start : Writes SpellsToken ("<" ++ Text.ofString name ++ attributes as ++ ">")
    [.start name.toList (carriedAttributes as)] := by
  simp only [isTag, Bool.and_eq_true, List.all_eq_true, decide_eq_true_eq] at h
  obtain ⟨⟨hname, hnames⟩, hnodup⟩ := h
  obtain ⟨w, hw, has⟩ : Writes SpellsAttribute (attributes as) (carriedAttributes as) :=
    writes_attributes fun a ha => hnames a.1 (List.mem_map_of_mem ha)
  have hdistinct : ((carriedAttributes as).map (·.1)).Nodup := by
    have hmap : (carriedAttributes as).map (·.1) = (as.map (·.1)).map String.toList := by
      simp [carriedAttributes]
    rw [hmap]
    exact hnodup.map fun _ _ => String.toList_inj.1
  refine ⟨_, ?_, .singleton (.start hname hdistinct has)⟩
  have hopen : Text.ofString "<" = Text.ofChars ['<'] := Text.ofString_eq_ofChars _
  have hclose : Text.ofString ">" = Text.ofChars ['>'] := Text.ofString_eq_ofChars _
  rw [hopen, hclose, hw, Text.ofString_eq_ofChars, ← Text.ofChars_append, ← Text.ofChars_append,
    ← Text.ofChars_append]
  simp

theorem writes_stop :
    Writes SpellsToken ("</" ++ Text.ofString name ++ ">") [.stop name.toList] := by
  simp only [isTag, Bool.and_eq_true] at h
  refine ⟨_, ?_, .singleton (.stop h.1.1)⟩
  have hopen : Text.ofString "</" = Text.ofChars ['<', '/'] := Text.ofString_eq_ofChars _
  have hclose : Text.ofString ">" = Text.ofChars ['>'] := Text.ofString_eq_ofChars _
  rw [hopen, hclose, Text.ofString_eq_ofChars, ← Text.ofChars_append, ← Text.ofChars_append]
  simp

theorem writes_element {t : Text} {content : List Node} (ht : Writes SpellsToken t (tokensOf content)) :
    Writes SpellsToken (element name as t)
      (Node.element name.toList (carriedAttributes as) content).tokens := by
  -- An element is a start tag, its content and a stop tag.
  have hwhole := ((writes_start h).append ht).append (writes_stop h)
  rw [List.append_assoc [_]] at hwhole
  simpa only [element, Node.tokens, List.append_assoc, List.singleton_append] using hwhole

/-- Whatever the values and the text are, an element on one line has them as XML carries them. -/
theorem writes_leaf (t : Text) : Writes SpellsToken (leaf (Text.ofString name) as t)
    (Node.element name.toList (carriedAttributes as) ((carried t).map .char)).tokens := by
  refine writes_element h ?_
  rw [tokensOf_chars]
  exact writes_text t

end Element

end LiteralAudit.Format.Xml
