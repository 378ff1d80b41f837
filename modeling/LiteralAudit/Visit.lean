import LiteralAudit.Literal.Go.Statement
import LiteralAudit.Literal.Quoted
import LiteralAudit.Path
import LiteralAudit.Text.Utf8
import LiteralAudit.Whitelist

/-!
# Auditing one file

`Visit.issues` extracts the literals of a file, classifies each one, drops what the whitelist allows
and describes the rest. A test file yields nothing, and a file that cannot be parsed yields the one
issue that says so.
-/

/-!
## Masking secrets

A secret is shown by its first characters and as many stars as it has others: at most two characters
of a short secret, at most four of a long one, and none of a secret of up to four.
-/

namespace LiteralAudit.Text

/-- How many characters of a secret of `n` characters are shown. -/
def shownOfSecret (n : Nat) : Nat := if n ≤ 4 then 0 else if n ≤ 12 then 2 else 4

/-- A secret with most of its characters replaced by stars. -/
def mask (t : Text) : Text :=
  let cs := t.chars
  let keep := shownOfSecret cs.length
  ofChars (cs.take keep) ++ List.replicate (cs.length - keep) ('*' : UInt8)

end LiteralAudit.Text

namespace LiteralAudit.Visit

/-- The literals of a source, by the extractor that the extension of its path selects. -/
def extract (path source : Text) : Except ParseError (List Literal) :=
  let ext := Text.toLower (Path.extension path)
  if ext == ".py" || ext == ".pyw" || ext == ".pyi" then Python.literals source
  else if ext == ".go" then Go.literals path source
  else QuotedStrings.literals source

/-- How many characters of a value are shown. -/
def shownLength : Nat := 80

/-- A value, cut after `n` characters when it has more. -/
def cutAfter (n : Nat) (t : Text) : Text :=
  let cs := t.chars
  if cs.length ≤ n then t else Text.ofChars (cs.take n) ++ "..."

/-- One value as a description shows it. -/
def shown (rule : Rule) (value : Text) : Text :=
  (cutAfter shownLength (if rule.sensitive then value.mask else value)).quoted

/-- What an issue says about the values found. -/
def describe (rule : Rule) (values : List Text) (binding : Text) : Text :=
  "Hardcoded " ++ rule.description ++ ": " ++ Text.join ", " (values.map (shown rule)) ++
    (if binding.isEmpty then [] else " (assigned to " ++ binding ++ ")" : Text)

/-- The issues of one literal. -/
def literalIssues (l : Library) (w? : Option Whitelist) (path : Text) (lit : Literal) :
    List Issue :=
  (l.classify ⟨lit.value, lit.binding, lit.numeric⟩).filterMap fun found =>
    let kept := found.values.filter fun v =>
      !w?.any fun w => w.allows found.category.name v lit.value
    if kept.isEmpty then none
    else some {
      file := path
      line := lit.line
      kind := found.category.kind
      severity := found.category.severity
      description := describe found.rule kept lit.binding
      pattern := found.rule.source
      fix := found.category.remediation }

/-- The issue of a file that cannot be parsed. -/
def parseIssue (l : Library) (path : Text) (e : ParseError) : Issue where
  file := path
  line := if e.line > 0 then e.line else 1
  kind := Issue.scanError
  severity := .medium
  description := "failed to parse file: " ++ e.message
  pattern := "syntax"
  fix := l.remediation Issue.scanError

/-- The issues of one file. -/
def issues (l : Library) (w? : Option Whitelist) (path source : Text) : List Issue :=
  if w?.any (·.isTestFile path) then []
  else match extract path source with
    | .error e => [parseIssue l path e]
    | .ok lits => lits.flatMap (literalIssues l w? path)

end LiteralAudit.Visit
