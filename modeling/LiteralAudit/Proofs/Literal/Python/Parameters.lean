import LiteralAudit.Proofs.Literal.Python.Annotations
import Mathlib

/-!
# Strings behind annotated names

The string of an annotated assignment is bound to the target when the annotation is a single name only;
behind a dotted name it is bound to the last name of the annotation, and behind a generic type to nothing
(`literals_annotatedAssignment`). The default of a parameter is bound to the last name of its annotation
always, and to the parameter where there is no annotation (`literals_definition`).
-/

namespace LiteralAudit.Python

variable {lx : Lexer} {after : Text}

/-! ## Names with annotations and values -/

/-- A name that may have an annotation and a string for its value: a parameter with its default, or the
whole of an assignment. -/
structure Parameter where
  name : Variable
  hint? : Option TypeHint
  value? : Option WrittenString

namespace Parameter

def text (p : Parameter) : Text :=
  p.name.text ++ (p.hint?.map fun a => Text.ofString ": " ++ a.text).getD [] ++
    (p.value?.map fun s => Text.ofString " = " ++ s.text).getD []

/-- The line breaks in the value. -/
def breaks (p : Parameter) : Nat := (p.value?.map (·.breaks)).getD 0

/-- The literal of the value, which starts on `line`. -/
def literals (inBrackets : Bool) (line : Nat) (p : Parameter) : List Literal :=
  (p.value?.map fun s => (⟨s.value, line, false,
    annotatedBinding inBrackets p.name.text p.hint?⟩ : Literal)).toList

end Parameter

/-- The state after a name with its annotation. -/
def Lexer.readAnnotated (lx : Lexer) (p : Parameter) : Lexer :=
  lx.recordAll (annotatedTokens p.name.text p.hint? lx.opened.length lx.line)

/-- The state after a parameter. -/
def Lexer.readParameter (lx : Lexer) (p : Parameter) : Lexer :=
  (p.value?.map fun s =>
    ((lx.readAnnotated p).record ⟨.op, "=", lx.opened.length, lx.line⟩).readWritten s).getD
      (lx.readAnnotated p)

theorem EndsName.endsString {quote : UInt8} (h : EndsName after) (hquote : isQuote quote = true) :
    EndsString quote after := by
  intro b hb
  exact ne_of_isQuote hquote (h b hb).2

theorem reaches_value (lx : Lexer) (s : WrittenString) (hafter : EndsName after) :
    (lx.reading ((' ' : UInt8) :: ('=' : UInt8) :: (' ' : UInt8) :: (s.text ++ after))).Reaches
      (((lx.record ⟨.op, "=", lx.opened.length, lx.line⟩).readWritten s).reading after) := by
  refine (reaches_blank _ _).trans ?_
  refine (reaches_op rfl (by decide)).trans ?_
  refine (reaches_blank _ _).trans ?_
  exact reaches_string _ s (hafter.endsString s.isQuote_quote)

theorem reaches_parameter (lx : Lexer) (p : Parameter) (hafter : EndsName after) :
    (lx.reading (p.text ++ after)).Reaches ((lx.readParameter p).reading after) := by
  obtain ⟨name, hint?, value?⟩ := p
  have hspace (t : Text) : EndsName ((' ' : UInt8) :: t) := endsName_cons (by decide) (by decide) t
  have hcolon (t : Text) : EndsName ((':' : UInt8) :: t) := endsName_cons (by decide) (by decide) t
  have hannotated {after : Text} (hafter : EndsName after) :
      (lx.reading (name.text ++ ((hint?.map fun a => Text.ofString ": " ++ a.text).getD [] ++
        after))).Reaches ((lx.readAnnotated ⟨name, hint?, value?⟩).reading after) := by
    cases hint? with
    | none => exact reaches_name name.toIdentifier hafter
    | some a =>
      have hblank : Text.ofString ": " = [(':' : UInt8), (' ' : UInt8)] := rfl
      simp only [Option.map_some, Option.getD_some, hblank, List.cons_append, List.nil_append]
      refine (reaches_name name.toIdentifier (hcolon _)).trans ?_
      refine (reaches_op rfl (by decide)).trans ?_
      refine (reaches_blank _ _).trans ?_
      exact reaches_typeHint a _ hafter
  cases value? with
  | none =>
    have htext : Parameter.text ⟨name, hint?, none⟩ ++ after = name.text ++
        ((hint?.map fun a => Text.ofString ": " ++ a.text).getD [] ++ after) := by
      simp [Parameter.text]
    rw [htext]
    exact hannotated hafter
  | some s =>
    have htext : Parameter.text ⟨name, hint?, some s⟩ ++ after = name.text ++
        ((hint?.map fun a => Text.ofString ": " ++ a.text).getD [] ++
          ((' ' : UInt8) :: ('=' : UInt8) :: (' ' : UInt8) :: (s.text ++ after))) := by
      have hequals : Text.ofString " = " = [(' ' : UInt8), ('=' : UInt8), (' ' : UInt8)] := rfl
      simp [Parameter.text, hequals]
    have hvalue := reaches_value (lx.readAnnotated ⟨name, hint?, some s⟩) s hafter
    rw [Lexer.readAnnotated, Lexer.opened_recordAll, Lexer.line_recordAll] at hvalue
    rw [htext]
    exact (hannotated (hspace _)).trans hvalue

variable {p : Parameter}

theorem literals_readParameter (h : ∀ t ∈ lx.recent.head?, t.isOp ":" = false) :
    (lx.readParameter p).literals =
      (p.literals (lx.opened.length != 0) lx.line).reverse ++ lx.literals := by
  obtain ⟨name, hint?, value?⟩ := p
  cases value? with
  | none => exact Lexer.literals_recordAll _
  | some s =>
    have hbinding := binding_annotated h name.text hint? lx.opened.length lx.line
    simp [Lexer.readParameter, Lexer.readAnnotated, Parameter.literals, hbinding]

theorem line_readParameter (lx : Lexer) (p : Parameter) :
    (lx.readParameter p).line = lx.line + p.breaks := by
  obtain ⟨name, hint?, value?⟩ := p
  cases value? <;> simp [Lexer.readParameter, Lexer.readAnnotated, Parameter.breaks]

theorem opened_readParameter (lx : Lexer) (p : Parameter) : (lx.readParameter p).opened = lx.opened := by
  obtain ⟨name, hint?, value?⟩ := p
  cases value? <;> simp [Lexer.readParameter, Lexer.readAnnotated]

/-! ## Tokens passed within brackets -/

/-- From `lx` to `next`, nested tokens were passed within the brackets that are open. -/
structure Lexer.Passed (lx next : Lexer) (ts : List Token) : Prop where
  opened : next.opened = lx.opened
  statement : next.statement = ts.reverse ++ lx.statement
  nested : Nested ts
  semicolon : ∀ t ∈ ts, t.isOp ";" = false

namespace Lexer.Passed

variable {mid next : Lexer} {ts us : List Token}

theorem trans (h : lx.Passed mid ts) (h' : mid.Passed next us) : lx.Passed next (ts ++ us) where
  opened := h'.opened.trans h.opened
  statement := by rw [h'.statement, h.statement, List.reverse_append, List.append_assoc]
  nested := h.nested.append h'.nested
  semicolon := by
    intro t ht
    rcases List.mem_append.1 ht with ht | ht
    · exact h.semicolon t ht
    · exact h'.semicolon t ht

theorem recordAll (hnested : Nested ts) (hsemicolon : ∀ t ∈ ts, t.isOp ";" = false) :
    lx.Passed (lx.recordAll ts) ts :=
  ⟨Lexer.opened_recordAll ts, Lexer.statement_recordAll ts, hnested, hsemicolon⟩

theorem record {t : Token} (hplain : t.isBracket = false) (hsemicolon : t.isOp ";" = false) :
    lx.Passed (lx.record t) [t] :=
  ⟨rfl, rfl, .plain hplain, by simpa using hsemicolon⟩

theorem readWritten (lx : Lexer) (s : WrittenString) :
    lx.Passed (lx.readWritten s) [⟨.string, s.value, lx.opened.length, lx.line⟩] :=
  ⟨rfl, rfl, .plain rfl, by simp [Token.isOp]⟩

end Lexer.Passed

theorem nested_annotatedTokens (name : Text) (hint? : Option TypeHint) (depth line : Nat) :
    Nested (annotatedTokens name hint? depth line) := by
  refine .plain_append rfl ?_
  cases hint? with
  | none => exact .nil
  | some a => exact .plain_append rfl (a.nested_tokens depth line)

theorem semicolon_of_mem_annotatedTokens {name : Text} {hint? : Option TypeHint}
    {depth line : Nat} {t : Token} (ht : t ∈ annotatedTokens name hint? depth line) :
    t.isOp ";" = false := by
  rcases List.mem_cons.1 ht with rfl | ht
  · rfl
  · cases hint? with
    | none => cases ht
    | some a =>
      rcases List.mem_cons.1 ht with rfl | ht
      · rfl
      · exact (a.quiet_of_mem_tokens depth line ht).semicolon

theorem passed_readParameter (lx : Lexer) (p : Parameter) : ∃ ts, lx.Passed (lx.readParameter p) ts := by
  obtain ⟨name, hint?, value?⟩ := p
  have hannotated : lx.Passed (lx.readAnnotated ⟨name, hint?, value?⟩) _ :=
    .recordAll (nested_annotatedTokens ..) fun t ht => semicolon_of_mem_annotatedTokens ht
  cases value? with
  | none => exact ⟨_, hannotated⟩
  | some s => exact ⟨_, (hannotated.trans (.record rfl rfl)).trans (.readWritten _ s)⟩

/-! ## Assignments with annotations -/

/-- An assignment with an annotation, on a line of its own. -/
def annotatedAssignment (target : Variable) (a : TypeHint) (s : WrittenString) : Text :=
  target.text ++ ": " ++ a.text ++ " = " ++ s.text

theorem literals_annotatedAssignment (target : Variable) (a : TypeHint) (s : WrittenString) :
    literals (annotatedAssignment target a s) =
      .ok [⟨s.value, 1, false, a.binding false target.text⟩] := by
  have hread := @reaches_parameter [] { rest := [] } ⟨target, some a, some s⟩ (by simp [EndsName])
  have htext : Parameter.text ⟨target, some a, some s⟩ ++ [] = annotatedAssignment target a s := by
    simp [Parameter.text, annotatedAssignment]
  rw [htext] at hread
  have hstatement : (Lexer.readParameter { rest := [] } ⟨target, some a, some s⟩).statement.reverse =
      ⟨.name, target.text, 0, 1⟩ :: (⟨.op, ":", 0, 1⟩ :: a.tokens 0 1) ++
        [⟨.op, "=", 0, 1⟩, ⟨.string, s.value, 0, 1⟩] := by
    simp [Lexer.readParameter, Lexer.readAnnotated, Lexer.statement_recordAll, annotatedTokens]
  have hchecked : checkLine
      (Lexer.readParameter { rest := [] } ⟨target, some a, some s⟩).statement.reverse = .ok () := by
    rw [hstatement]
    refine checkLine_assignment rfl target.free ?_ ?_ ?_ rfl 0 1
    · intro t ht
      obtain rfl : _ = t := Option.some.inj ht
      exact ⟨rfl, rfl⟩
    · intro t ht
      rcases List.mem_cons.1 ht with rfl | ht
      · exact ⟨rfl, rfl, rfl⟩
      · exact a.quiet_of_mem_tokens 0 1 ht
    · exact balance_of_nested (.plain_append rfl (a.nested_tokens 0 1))
  have hopened := opened_readParameter { rest := [] } ⟨target, some a, some s⟩
  have hliterals := @literals_readParameter { rest := [] } ⟨target, some a, some s⟩ (by simp)
  rw [literals_of_checked hread hopened hchecked, hliterals]
  rfl

/-! ## Definitions -/

namespace Parameter

/-- The literals of parameters, the first of which starts on `line`. -/
def literalsFrom (line : Nat) : List Parameter → List Literal
  | [] => []
  | p :: ps => p.literals true line ++ literalsFrom (line + p.breaks) ps

end Parameter

/-- The definition of a function that does nothing. -/
def definition (f : Variable) (ps : List Parameter) : Text :=
  "def " ++ f.text ++ "(" ++ Text.join ", " (ps.map Parameter.text) ++ "): pass"

/-- Within brackets, the lexer reads parameters one after the other. -/
theorem reaches_parameters (hopened : lx.opened ≠ []) (hrecent : ∀ t ∈ lx.recent.head?, t.isOp ":" = false)
    (ps : List Parameter) (hafter : EndsName after) :
    ∃ next ts, (lx.reading (Text.join ", " (ps.map Parameter.text) ++ after)).Reaches
        (next.reading after) ∧
      lx.Passed next ts ∧ next.literals = (Parameter.literalsFrom lx.line ps).reverse ++ lx.literals := by
  induction ps generalizing lx with
  | nil => exact ⟨lx, [], .refl, ⟨rfl, rfl, .nil, by simp⟩, rfl⟩
  | cons p ps ih =>
    obtain ⟨ts, hpassed⟩ := passed_readParameter lx p
    have hinside : (lx.opened.length != 0) = true := by simpa using hopened
    have hliterals := literals_readParameter (p := p) hrecent
    rw [hinside] at hliterals
    cases ps with
    | nil =>
      refine ⟨lx.readParameter p, ts, ?_, hpassed, ?_⟩
      · simpa [Text.join] using reaches_parameter lx p hafter
      · simpa [Parameter.literalsFrom] using hliterals
    | cons p' ps =>
      let comma : Token := ⟨.op, ",", (lx.readParameter p).opened.length, (lx.readParameter p).line⟩
      have hcomma : lx.Passed ((lx.readParameter p).record comma) (ts ++ [comma]) :=
        hpassed.trans (.record rfl rfl)
      obtain ⟨next, us, hread, hpassed', hliterals'⟩ :=
        @ih ((lx.readParameter p).record comma) (by rwa [hcomma.opened]) (by
          intro t ht
          obtain rfl : comma = t := Option.some.inj ht
          rfl)
      refine ⟨next, ts ++ [comma] ++ us, ?_, hcomma.trans hpassed', ?_⟩
      · have hjoin : Text.join ", " ((p :: p' :: ps).map Parameter.text) ++ after =
            p.text ++ ((',' : UInt8) :: (' ' : UInt8) ::
              (Text.join ", " ((p' :: ps).map Parameter.text) ++ after)) := by
          have hsep : Text.ofString ", " = [(',' : UInt8), (' ' : UInt8)] := rfl
          simp [Text.join, hsep]
        rw [hjoin]
        refine (reaches_parameter lx p (endsName_cons (by decide) (by decide) _)).trans ?_
        refine (reaches_op rfl (by decide)).trans ?_
        exact (reaches_blank _ _).trans hread
      · rw [hliterals', Lexer.line_record, Lexer.literals_record, line_readParameter, hliterals]
        simp [Parameter.literalsFrom]

/-- The word that starts the definition of a function. -/
def defWord : Identifier := ⟨"def", ⟨'d', "ef", rfl, rfl⟩, by decide⟩

/-- The statement that does nothing. -/
def passWord : Identifier := ⟨"pass", ⟨'p', "ass", rfl, rfl⟩, by decide⟩

/-- The definition of a function is read to its end, whatever its parameters are annotated with. -/
theorem literals_definition (f : Variable) (ps : List Parameter) :
    literals (definition f ps) = .ok (Parameter.literalsFrom 1 ps) := by
  let start : Lexer := (((({ rest := [] } : Lexer).record ⟨.name, "def", 0, 1⟩).record
    ⟨.name, f.text, 0, 1⟩).withOpened [⟨'(', 1⟩]).record ⟨.op, "(", 1, 1⟩
  have hrecent : ∀ t ∈ start.recent.head?, t.isOp ":" = false := by
    intro t ht
    obtain rfl : _ = t := Option.some.inj ht
    rfl
  have hend : EndsName ([] : Text) := by simp [EndsName]
  have hblank (t : Text) : EndsName ((' ' : UInt8) :: t) := endsName_cons (by decide) (by decide) t
  have hbracket (t : Text) : EndsName (('(' : UInt8) :: t) := endsName_cons (by decide) (by decide) t
  have hclosing (t : Text) : EndsName ((')' : UInt8) :: t) := endsName_cons (by decide) (by decide) t
  obtain ⟨next, ts, hread, hpassed, hliterals⟩ := @reaches_parameters start _ (by simp [start])
    hrecent ps (hclosing ((':' : UInt8) :: (' ' : UInt8) :: (passWord.text ++ [])))
  have hopened : next.opened = ⟨'(', 1⟩ :: [] := hpassed.opened
  let closed : Lexer := ((((next.withOpened []).record ⟨.op, ")", 0, next.line⟩).record
    ⟨.op, ":", 0, next.line⟩).record ⟨.name, "pass", 0, next.line⟩)
  have hsource : ({ rest := definition f ps } : Lexer).Reaches (closed.reading []) := by
    have htext : definition f ps = defWord.text ++ ((' ' : UInt8) :: (f.text ++ (('(' : UInt8) ::
        (Text.join ", " (ps.map Parameter.text) ++
          ((')' : UInt8) :: (':' : UInt8) :: (' ' : UInt8) :: (passWord.text ++ [])))))) := by
      have hdef : Text.ofString "def " = defWord.text ++ [(' ' : UInt8)] := rfl
      have hopen : Text.ofString "(" = [('(' : UInt8)] := rfl
      have hend : Text.ofString "): pass" = (')' : UInt8) :: (':' : UInt8) :: (' ' : UInt8) ::
        passWord.text := rfl
      simp [definition, hdef, hopen, hend]
    rw [htext]
    refine (@reaches_name { rest := [] } _ defWord (hblank _)).trans ?_
    refine (reaches_blank _ _).trans ?_
    refine (reaches_name f.toIdentifier (hbracket _)).trans ?_
    refine (reaches_bracket rfl).trans ?_
    refine hread.trans ?_
    refine (reaches_closingBracket rfl hopened rfl).trans ?_
    refine (reaches_op rfl (by decide)).trans ?_
    refine (reaches_blank _ _).trans ?_
    exact reaches_name passWord hend
  have hstatement : closed.statement.reverse = definitionTokens f.text ts 1 next.line := by
    have hnext : closed.statement = ⟨.name, "pass", 0, next.line⟩ :: ⟨.op, ":", 0, next.line⟩ ::
        ⟨.op, ")", 0, next.line⟩ :: next.statement := rfl
    have hstart : start.statement =
        [⟨.op, "(", 1, 1⟩, ⟨.name, f.text, 0, 1⟩, ⟨.name, "def", 0, 1⟩] := rfl
    rw [hnext, hpassed.statement, hstart]
    simp [definitionTokens]
  have hchecked : checkLine closed.statement.reverse = .ok () := by
    rw [hstatement]
    exact checkLine_definition f.free hpassed.nested hpassed.semicolon 1 next.line
  have hnone : start.literals = [] := rfl
  have hline : start.line = 1 := rfl
  rw [literals_of_checked hsource rfl hchecked]
  show Except.ok next.literals.reverse = _
  rw [hliterals, hnone, hline, List.append_nil, List.reverse_reverse]

/-! ## Where the binding is the name -/

/-- The name at the end of an annotation, which a generic type does not have. -/
def TypeHint.lastName? : TypeHint → Option Text
  | .name n => some n.text
  | .member _ n => some n.text
  | .generic _ _ => none

theorem Identifier.text_ne_nil (n : Identifier) : n.text ≠ [] := by
  obtain ⟨b, rest, htext, -⟩ := n.starts
  rw [htext]
  exact List.cons_ne_nil b rest

theorem binding_eq_target_iff (inBrackets : Bool) (target : Variable) (a : TypeHint) :
    a.binding inBrackets target.text = target.text ↔
      (inBrackets = false ∧ ∃ n, a = .name n) ∨ a.lastName? = some target.text := by
  cases a with
  | name n => cases inBrackets <;> simp [TypeHint.binding, TypeHint.lastName?]
  | member of n => simp [TypeHint.binding, TypeHint.lastName?]
  | generic of args =>
    have hne := target.text_ne_nil
    simp [TypeHint.binding, TypeHint.lastName?, hne.symm]

theorem Parameter.literalsFrom_append (line : Nat) (ps qs : List Parameter) :
    literalsFrom line (ps ++ qs) =
      literalsFrom line ps ++ literalsFrom (line + (ps.map breaks).sum) qs := by
  induction ps generalizing line with
  | nil => rfl
  | cons p ps ih =>
    rw [List.cons_append, literalsFrom, literalsFrom, ih, List.append_assoc, List.map_cons,
      List.sum_cons, Nat.add_assoc]

/-- What a string behind an annotated name is bound to, in an assignment and among the parameters of a
function: it is the name where the annotation is a single name outside all brackets, or ends in the very
name. -/
theorem bindings_behind_annotations (target f : Variable) (a : TypeHint) (s : WrittenString)
    (before after : List Parameter) :
    literals (annotatedAssignment target a s) =
      .ok [⟨s.value, 1, false, a.binding false target.text⟩] ∧
    literals (definition f (before ++ ⟨target, some a, some s⟩ :: after)) =
      .ok (Parameter.literalsFrom 1 before ++
        ⟨s.value, 1 + (before.map (·.breaks)).sum, false, a.binding true target.text⟩ ::
          Parameter.literalsFrom (1 + (before.map (·.breaks)).sum + s.breaks) after) ∧
    (a.binding false target.text = target.text ↔
      (∃ n, a = .name n) ∨ a.lastName? = some target.text) ∧
    (a.binding true target.text = target.text ↔ a.lastName? = some target.text) := by
  refine ⟨literals_annotatedAssignment target a s, ?_, ?_, ?_⟩
  · rw [literals_definition, Parameter.literalsFrom_append]
    rfl
  · rw [binding_eq_target_iff]
    simp
  · rw [binding_eq_target_iff]
    simp

/-! ## A password that is bound to nothing -/

def passwordName : Variable := ⟨⟨"password", ⟨'p', "assword", rfl, rfl⟩, by decide⟩, by decide⟩

/-- `Optional[str]` -/
def optionalStr : TypeHint :=
  .generic (.name ⟨⟨"Optional", ⟨'O', "ptional", rfl, rfl⟩, by decide⟩, by decide⟩)
    (.one (.name ⟨⟨"str", ⟨'s', "tr", rfl, rfl⟩, by decide⟩, by decide⟩))

/-- `"hunter2"` -/
def hunter2 : WrittenString where
  front := []
  quote := '"'
  triple := false
  body := List.map (fun b => { byte := b }) ("hunter2" : Text)
  front_mem := nil_mem_stringFronts
  isQuote_quote := isQuote_doubleQuote
  fits := by
    intro p hp
    obtain ⟨b, hb, rfl⟩ := List.mem_map.1 hp
    have hplain : ∀ b ∈ ("hunter2" : Text), b ≠ '"' ∧ b ≠ '\\' ∧ b ≠ '\n' := by decide
    obtain ⟨hquote, hbackslash, hbreak⟩ := hplain b hb
    exact ⟨Nat.le_refl 0, fun _ => ⟨hquote, hbackslash, fun _ => hbreak⟩⟩

theorem password_bound_to_nothing :
    literals "password: Optional[str] = \"hunter2\"" = .ok [⟨"hunter2", 1, false, []⟩] ∧
    literals "def f(password: str = \"hunter2\"): pass" = .ok [⟨"hunter2", 1, false, "str"⟩] ∧
    ¬ ∀ target a s, ∃ l, literals (annotatedAssignment target a s) = .ok [l] ∧ l.binding = target.text := by
  have hstatement : literals "password: Optional[str] = \"hunter2\"" = .ok [⟨"hunter2", 1, false, []⟩] := by
    decide
  refine ⟨hstatement, by decide, fun h => ?_⟩
  obtain ⟨l, hliterals, hbinding⟩ := h passwordName optionalStr hunter2
  have htext : annotatedAssignment passwordName optionalStr hunter2 =
      "password: Optional[str] = \"hunter2\"" := by decide
  rw [htext, hstatement] at hliterals
  cases hliterals
  exact passwordName.text_ne_nil hbinding.symm

end LiteralAudit.Python
