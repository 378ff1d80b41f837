import LiteralAudit.Proofs.Literal.Python.CheckedStatements
import LiteralAudit.Proofs.Literal.Python.Pieces
import Mathlib

/-!
# Assignments read back

An assignment of a text to a variable is written on a line of its own, the text between double quotes
with its special bytes escaped. From such lines the lexer reads the assignments back: one string for each,
with the text for its value, the variable for its binding, and the number of its line
(`literals_assignments`).
-/

namespace LiteralAudit.Python

open Text (lf)

/-- A text that is assigned to a variable. -/
structure Assignment where
  target : Variable
  value : Text

/-- A byte, as it is written between double quotes. -/
def escape (b : UInt8) : Text :=
  if b == '\\' then "\\\\"
  else if b == '"' then "\\\""
  else if b == '\n' then "\\n"
  else if b == '\r' then "\\r"
  else if b == '\t' then "\\t"
  else if b == 0 then "\\0"
  else [b]

namespace Assignment

def text (a : Assignment) : Text := a.target.text ++ " = \"" ++ a.value.flatMap escape ++ "\""

/-- The string of the assignment, which stands on `line`. -/
def literal (a : Assignment) (line : Nat) : Literal := ⟨a.value, line, false, a.target.text⟩

end Assignment

/-! ## Escaped texts -/

/-- The byte of a string that stands for `b`. -/
def escapedByte (b : UInt8) : StringByte :=
  if b == '\\' then ⟨0, true, '\\'⟩
  else if b == '"' then ⟨0, true, '"'⟩
  else if b == '\n' then ⟨0, true, 'n'⟩
  else if b == '\r' then ⟨0, true, 'r'⟩
  else if b == '\t' then ⟨0, true, 't'⟩
  else if b == 0 then ⟨0, true, '0'⟩
  else ⟨0, false, b⟩

theorem text_escapedByte (b : UInt8) : (escapedByte b).text '"' = escape b := by
  unfold escapedByte escape
  split_ifs <;> rfl

theorem breaks_escapedByte (b : UInt8) : (escapedByte b).breaks = 0 := by
  unfold escapedByte
  split_ifs with _ _ hlf
  all_goals first | rfl | exact if_neg hlf

theorem value_escapedByte (b : UInt8) : (escapedByte b).value false '"' = [b] := by
  unfold escapedByte
  split_ifs with h₁ h₂ h₃ h₄ h₅ h₆
  · rw [eq_of_beq h₁]
    decide
  · rw [eq_of_beq h₂]
    decide
  · rw [eq_of_beq h₃]
    decide
  · rw [eq_of_beq h₄]
    decide
  · rw [eq_of_beq h₅]
    decide
  · rw [eq_of_beq h₆]
    decide
  · rfl

theorem fits_escapedByte (b : UInt8) : (escapedByte b).Fits '"' false := by
  have hescape (c : UInt8) : StringByte.Fits ⟨0, true, c⟩ '"' false := ⟨Nat.le_refl 0, by simp⟩
  unfold escapedByte
  split_ifs with hbackslash hquote hlf
  case neg =>
    refine ⟨Nat.le_refl 0, fun _ => ⟨?_, ?_, fun _ => ?_⟩⟩
    · simpa using hquote
    · simpa using hbackslash
    · simpa using hlf
  all_goals exact hescape _

/-- A text between double quotes, with its special bytes escaped. -/
def WrittenString.quoted (t : Text) : WrittenString where
  front := []
  quote := '"'
  triple := false
  body := t.map escapedByte
  front_mem := nil_mem_stringFronts
  isQuote_quote := isQuote_doubleQuote
  fits := by
    intro p hp
    obtain ⟨b, -, rfl⟩ := List.mem_map.1 hp
    exact fits_escapedByte b

namespace WrittenString

variable (t : Text)

theorem text_quoted : (quoted t).text = ('"' : UInt8) :: (t.flatMap escape ++ [('"' : UInt8)]) := by
  have hinner : (quoted t).inner = t.flatMap escape := by
    rw [inner, quoted, List.flatMap_map]
    exact List.flatMap_congr fun b _ => text_escapedByte b
  rw [text, hinner]
  rfl

theorem value_quoted : (quoted t).value = t := by
  have hraw : (quoted t).raw = false := rfl
  rw [value, hraw, quoted, List.flatMap_map]
  exact (List.flatMap_congr fun b _ => value_escapedByte b).trans (List.flatMap_singleton' t)

theorem breaks_quoted : (quoted t).breaks = 0 := by
  rw [breaks, quoted, List.map_map]
  simp [Function.comp_def, breaks_escapedByte]

end WrittenString

/-! ## One line -/

/-- The lexer stands before a statement, and not behind a colon. -/
structure Lexer.AtStatement (lx : Lexer) : Prop where
  opened : lx.opened = []
  statement : lx.statement = []
  recent : ∀ t ∈ lx.recent.head?, t.isOp ":" = false

variable {lx : Lexer} {after : Text}

theorem atStatement_nextLine (lx : Lexer) (h : lx.opened = []) : lx.nextLine.AtStatement where
  opened := h
  statement := rfl
  recent := by
    intro t ht
    obtain rfl : _ = t := Option.some.inj ht
    rfl

/-- The state after an assignment. -/
def Lexer.readAssignment (lx : Lexer) (a : Assignment) : Lexer :=
  Lexer.readWritten ((lx.record ⟨.name, a.target.text, lx.opened.length, lx.line⟩).record
    ⟨.op, "=", lx.opened.length, lx.line⟩) (.quoted a.value)

theorem reaches_assignment (lx : Lexer) (a : Assignment) (hafter : EndsString '"' after) :
    (lx.reading (a.text ++ after)).Reaches ((lx.readAssignment a).reading after) := by
  have hspaced : EndsName (' ' :: '=' :: ' ' :: ((WrittenString.quoted a.value).text ++ after)) := by
    intro b hb
    obtain rfl : _ = b := Option.some.inj hb
    exact ⟨by decide, by decide⟩
  have htext : a.text ++ after = a.target.text ++
      (' ' :: '=' :: ' ' :: ((WrittenString.quoted a.value).text ++ after) : Text) := by
    have hequals : Text.ofString " = \"" = [(' ' : UInt8), '=', ' ', '"'] := by decide
    have hquote : Text.ofString "\"" = [('"' : UInt8)] := by decide
    simp [Assignment.text, WrittenString.text_quoted, hequals, hquote]
  rw [htext]
  refine (reaches_name a.target.toIdentifier hspaced).trans ?_
  refine (reaches_blank _ _).trans ?_
  refine (reaches_op rfl (by decide)).trans ?_
  refine (reaches_blank _ _).trans ?_
  exact reaches_string _ (.quoted a.value) hafter

theorem checkLine_readAssignment (h : lx.AtStatement) (a : Assignment) :
    checkLine (lx.readAssignment a).statement.reverse = .ok () := by
  simp only [Lexer.readAssignment, Lexer.statement_readWritten, Lexer.statement_record, h.statement]
  exact @checkLine_assignment _ _ [] rfl a.target.free (by simp) (by simp) rfl rfl _ _

theorem literals_readAssignment (h : lx.AtStatement) (a : Assignment) :
    (lx.readAssignment a).literals = a.literal lx.line :: lx.literals := by
  simp [Lexer.readAssignment, Assignment.literal, binding_of_name h.recent, WrittenString.value_quoted]

theorem line_readAssignment (lx : Lexer) (a : Assignment) : (lx.readAssignment a).line = lx.line := by
  simp [Lexer.readAssignment, WrittenString.breaks_quoted]

/-! ## All lines -/

/-- From the start of a line, the lexer reads all assignments up to the end of the source. -/
theorem reaches_assignments (h : lx.AtStatement) (a : Assignment) (as : List Assignment) :
    ∃ last : Lexer,
      (lx.reading (Text.join "\n" ((a :: as).map Assignment.text))).Reaches (last.reading []) ∧
        last.opened = [] ∧ checkLine last.statement.reverse = .ok () ∧
        last.literals.reverse =
          lx.literals.reverse ++ (a :: as).mapIdx fun i a => a.literal (lx.line + i) := by
  have hchecked := checkLine_readAssignment h a
  have hopened : (lx.readAssignment a).opened = [] := h.opened
  induction as generalizing lx a with
  | nil =>
    have hread := @reaches_assignment [] lx a (by simp [EndsString])
    rw [List.append_nil] at hread
    refine ⟨lx.readAssignment a, by simpa [Text.join] using hread, hopened, hchecked, ?_⟩
    simp [literals_readAssignment h]
  | cons a' as ih =>
    have hstart := atStatement_nextLine _ hopened
    obtain ⟨last, hread, hlast, hlast', hliterals⟩ :=
      ih hstart a' (checkLine_readAssignment hstart a') hstart.opened
    have hjoin : Text.join "\n" ((a :: a' :: as).map Assignment.text) =
        a.text ++ ((lf : UInt8) :: Text.join "\n" ((a' :: as).map Assignment.text)) := by
      have hlf : Text.ofString "\n" = [lf] := rfl
      simp [Text.join, hlf]
    refine ⟨last, ?_, hlast, hlast', ?_⟩
    · rw [hjoin]
      refine (reaches_assignment lx a ?_).trans ?_
      · intro b hb
        obtain rfl : _ = b := Option.some.inj hb
        decide
      · exact (reaches_lineBreak hopened hchecked _).trans hread
    · have hone : (lx.readAssignment a).nextLine.literals = a.literal lx.line :: lx.literals :=
        literals_readAssignment h a
      have hline : (lx.readAssignment a).nextLine.line = lx.line + 1 :=
        congrArg (· + 1) (line_readAssignment lx a)
      rw [hliterals, hone, hline]
      simp [List.mapIdx_cons, Nat.add_assoc, Nat.add_comm 1]

/-- Assignments that are written on lines of their own are read back. -/
theorem literals_assignments (as : List Assignment) :
    literals (Text.join "\n" (as.map Assignment.text)) =
      .ok (as.mapIdx fun i a => a.literal (i + 1)) := by
  cases as with
  | nil => rfl
  | cons a as =>
    have hstart : Lexer.AtStatement { rest := [] } := ⟨rfl, rfl, by simp⟩
    obtain ⟨last, hread, hopened, hchecked, hliterals⟩ := reaches_assignments hstart a as
    rw [literals_of_checked hread hopened hchecked, hliterals]
    simp [Nat.add_comm 1]

end LiteralAudit.Python
