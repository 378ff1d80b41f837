import LiteralAudit.Text.Quoted
import LiteralAudit.Unicode.Case

/-!
# Issues

An issue is one finding: something in a file, at a line, that a pattern matched. Issues are
identified across runs by their `key`, which leaves the line out so that an issue that merely moved
is recognised.
-/

/-!
## Severity levels

An issue is critical, high, medium or low. Reports may name other levels: those weigh nothing and
sort behind the four known ones. `Severity.read` accepts the known names in any letter case and with
white space around them.
-/

namespace LiteralAudit

/-- How severe an issue is. `other` holds a name that is none of the four known ones. -/
inductive Severity where
  | critical
  | high
  | medium
  | low
  | other (name : Text)
  deriving Repr, DecidableEq, BEq, Inhabited

namespace Severity

/-- The known levels, the most severe first. -/
def known : List Severity := [critical, high, medium, low]

/-- The name of a level. -/
def name : Severity → Text
  | critical => "critical"
  | high => "high"
  | medium => "medium"
  | low => "low"
  | other t => t

/-- The level of a name. -/
def ofName (t : Text) : Severity := (known.find? (·.name == t)).getD (.other t)

/-- How many points one issue of a level counts. -/
def weight : Severity → Int
  | critical => 10
  | high => 5
  | medium => 2
  | low => 1
  | other _ => 0

/-- The place of a level in the order of severity. -/
def rank : Severity → Nat
  | critical => 0
  | high => 1
  | medium => 2
  | low => 3
  | other _ => 4

def isKnown (s : Severity) : Bool := s.rank < 4

/-- Why a text names no level. -/
structure Unknown where
  written : Text

def Unknown.message (u : Unknown) : Text :=
  "unknown severity " ++ u.written.quoted ++ " (must be critical, high, medium or low)"

/-- The known level that a text names, in any letter case. -/
def read (t : Text) : Except Unknown Severity :=
  let s := ofName t.trimSpace.toLower
  if s.isKnown then .ok s else .error ⟨t⟩

end Severity

end LiteralAudit

namespace LiteralAudit

/-- One finding. -/
structure Issue where
  file : Text := []
  line : Int := 0
  kind : Text := []
  severity : Severity := .other []
  description : Text := []
  pattern : Text := []
  fix : Text := []
  deriving Repr, DecidableEq, BEq, Inhabited

namespace Issue

/-- The kind of issue reported for a file that cannot be parsed. -/
def scanError : Text := "scan_error"

/-- The kind of issue reported for a line that holds a deprecated identifier. -/
def deprecatedComponent : Text := "deprecated_component_pattern"

/-- The kind of issue reported for a file that cannot be read. -/
def componentScanError : Text := "component_scan_error"

/-- What identifies an issue across runs. -/
def key (i : Issue) : Text :=
  i.file ++ "|" ++ i.kind ++ "|" ++ i.pattern ++ "|" ++ i.description

end Issue

end LiteralAudit
