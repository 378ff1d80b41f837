import LiteralAudit.Text.Basic

/-!
# Literals

A literal is a string or number found in a source file, with its line and the name it is bound to.
An extractor turns the text of a file into its literals, or says at which line and why the file
cannot be parsed.
-/

namespace LiteralAudit

/-- A string or number of a source file. -/
structure Literal where
  value : Text
  /-- Negative where a directive in the file says so. -/
  line : Int
  numeric : Bool := false
  /-- The variable, parameter or key to which the literal is bound; empty when there is none. -/
  binding : Text := []
  deriving Repr, DecidableEq, Inhabited

/-- Why a file cannot be parsed, and at which line. -/
structure ParseError where
  line : Int
  reason : Text
  deriving Repr, DecidableEq

/-- The reason, with the line if that is one of the file. -/
def ParseError.message (e : ParseError) : Text :=
  if e.line > 0 then Text.ofString "line " ++ Text.ofInt e.line ++ ": " ++ e.reason else e.reason

end LiteralAudit
