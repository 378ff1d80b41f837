import LiteralAudit.Literal.Python.Lexer
import LiteralAudit.Regex.Search
import LiteralAudit.Text.Basic

/-!
# Quoted strings of any language

For a language without an extractor of its own, every quoted string that fits one line is a literal.
A name before it and a colon or equals sign between the two is its binding, of which the part after
the last dot counts. Malformed source is no error; only a line that is too long is.
-/

namespace LiteralAudit.QuotedStrings

/-- An optional name with its colon or equals sign, then a quoted string. -/
def expression : Text :=
  r#"(?:([A-Za-z_$][\w.$-]*)["']?\s*(?::|=|:=)\s*)?("(?:[^"\\]|\\.)*"|'(?:[^'\\]|\\.)*'|`[^`]*`)"#

/-- The expression, which is well formed, as a pattern. -/
def pattern : Pattern := (Pattern.compile expression).toOption.getD default

/-- Auxiliary to `unescape`: the bytes so far are in reverse. -/
def unescapeFrom : Text → Text → Text
  | done, [] => done.reverse
  | done, [b] => (b :: done).reverse
  | done, a :: b :: rest =>
    if a == '\\' then unescapeFrom ((Python.escaped b).reverse ++ done) rest
    else unescapeFrom (a :: done) (b :: rest)

/-- The text of a string with its escapes replaced. -/
def unescape (t : Text) : Text := unescapeFrom [] t

/-- The part of a name after its last dot. -/
def lastPart (name : Text) : Text :=
  match Text.lastIndexOfByte? name '.' with
  | some i => name.drop (i + 1)
  | none => name

/-- The literals of one line. -/
def lineLiterals (number : Nat) (line : Text) : List Literal :=
  (pattern.findAll line).map fun m =>
    let quoted := (m.group? line 2).getD []
    { value := unescape ((quoted.drop 1).dropLast)
      line := number
      binding := lastPart ((m.group? line 1).getD []) }

/-- The literals of a source, line by line. -/
def literals (source : Text) : Except ParseError (List Literal) :=
  let (lines, tooLong) := source.scanLines Text.lineLimit
  if tooLong then .error ⟨lines.length + 1, "read: " ++ Text.lineTooLong⟩
  else .ok ((lines.zipIdx 1).flatMap fun (line, number) => lineLiterals number line)

end LiteralAudit.QuotedStrings
