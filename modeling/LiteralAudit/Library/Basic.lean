import LiteralAudit.Issue
import LiteralAudit.Number.Integer
import LiteralAudit.Regex.Search
import LiteralAudit.Text.Quoted
import LiteralAudit.Unicode.Case

/-!
# Detection rules

A rule looks at one literal at a time. It fires on a string when its value pattern matches the
string, or when its binding pattern matches the name the string is bound to, and on a number when
its numeric pattern matches the number's text. What it reports is the first group of a match, when
that is not empty, and the whole match otherwise; a binding reports the whole string.
-/

namespace LiteralAudit

/-- One literal offered to the rules. -/
structure Candidate where
  value : Text
  /-- The name to which the literal is bound; empty when there is none. -/
  binding : Text := []
  numeric : Bool := false
  deriving Repr, DecidableEq, Inhabited

/-- A rule as it is written down. -/
structure RuleSource where
  id : Text := []
  category : Text := []
  value : Text := []
  numeric : Text := []
  binding : Text := []
  portRange : Bool := false
  sensitive : Bool := false
  description : Text := []
  deriving Inhabited

/-- A rule whose patterns have been compiled; a pattern that was left empty is `none`. -/
structure Rule where
  id : Text
  category : Text
  value? : Option Pattern
  numeric? : Option Pattern
  binding? : Option Pattern
  /-- Only port numbers are reported. -/
  portRange : Bool
  /-- What is reported is a secret and is masked when shown. -/
  sensitive : Bool
  description : Text
  deriving Inhabited

/-- Why a rule cannot be compiled. -/
inductive RuleError where
  | noId
  | noPattern (id : Text)
  | badPattern (id which : Text) (cause : Regex.Error)

def RuleError.message : RuleError → Text
  | noId => "rule without id"
  | noPattern id => "rule " ++ id ++ ": needs value, numeric or binding pattern"
  | badPattern id which cause => "rule " ++ id ++ ": " ++ which ++ " pattern: " ++ cause.message

namespace RuleSource

/-- One of the rule's patterns, compiled; an empty one is none. -/
def pattern? (r : RuleSource) (which source : Text) : Except RuleError (Option Pattern) :=
  if source.isEmpty then .ok none
  else match Pattern.compile source with
    | .ok p => .ok (some p)
    | .error e => .error (.badPattern r.id which e)

/-- The compiled form of a rule. -/
def compile (r : RuleSource) : Except RuleError Rule := do
  if r.id.isEmpty then throw .noId
  if r.value.isEmpty && r.numeric.isEmpty && r.binding.isEmpty then throw (.noPattern r.id)
  let value? ← r.pattern? "value" r.value
  let numeric? ← r.pattern? "numeric" r.numeric
  let binding? ← r.pattern? "binding" r.binding
  return { r with value?, numeric?, binding? }

end RuleSource

namespace Rule

/-- The expression that reports name as the one that matched. -/
def source (r : Rule) : Text :=
  match r.value?, r.numeric?, r.binding? with
  | some p, _, _ | none, some p, _ | none, none, some p => p.source
  | none, none, none => []

/-- What each match of a pattern reports: its first group, or all of it where that is empty. -/
def collect (p : Pattern) (t : Text) : List Text :=
  (p.findAll t).map fun m =>
    match m.group? t 1 with
    | some g => if g.isEmpty then m.text t else g
    | none => m.text t

/-- Whether a text is the decimal number of a port. -/
def isPort (t : Text) : Bool := (Number.readDecimal? t).any fun n => 1 ≤ n && n ≤ 65535

/-- What the value pattern and the binding pattern report of a string. -/
def matchString (r : Rule) (c : Candidate) : List Text :=
  let found := match r.value? with
    | some p => collect p c.value
    | none => []
  let bound := r.binding?.any fun p =>
    !c.binding.isEmpty && !c.value.trimSpace.isEmpty && p.matchesIn c.binding
  if bound then found ++ [c.value] else found

/-- What the numeric pattern reports of a number. -/
def matchNumber (r : Rule) (c : Candidate) : List Text :=
  match r.numeric? with
  | some p => collect p c.value
  | none => []

/-- Everything a rule reports of a literal. -/
def find (r : Rule) (c : Candidate) : List Text :=
  let found := if c.numeric then r.matchNumber c else r.matchString c
  if r.portRange then found.filter isPort else found

end Rule

end LiteralAudit

/-!
## The rule library

A library is a table of categories, in the order in which findings are reported, a table of rules,
and the deprecated patterns that the line scanner looks for. `Library.classify` runs every rule on a
literal and groups what they report by category: the first rule of a category that fires represents
it, and a value that several rules report is listed once.
-/

namespace LiteralAudit

/-- A class of findings that share a severity and a kind of issue. -/
structure Category where
  name : Text
  kind : Text
  severity : Severity
  remediation : Text
  deriving Inhabited

/-- A table of categories and rules. -/
structure Library where
  categories : List Category
  rules : List Rule
  /-- What the line scanner looks for. -/
  deprecated : List Pattern
  deriving Inhabited

namespace Library

/-- The category of findings that refer to deprecated constructs. -/
def deprecatedCategory : Text := "deprecated_architecture_pattern"

def ipAddress : Text := "ip_address"

def port : Text := "port"

def filePath : Text := "file_path"

def category? (l : Library) (name : Text) : Option Category :=
  l.categories.find? (·.name == name)

/-- How to mend issues of a kind: the remediation of the first category that reports the kind. -/
def remediation (l : Library) (kind : Text) : Text :=
  match l.categories.find? (·.kind == kind) with
  | some c => c.remediation
  | none =>
    if kind == Issue.deprecatedComponent then
      ((l.category? deprecatedCategory).map (·.remediation)).getD []
    else if kind == Issue.scanError || kind == Issue.componentScanError then
      "Fix the file so it can be read and parsed"
    else []

/-- What the rules of one category report of a literal. -/
structure Finding where
  category : Category
  /-- The first rule of the category that fired. -/
  rule : Rule
  values : List Text
  deriving Inhabited

/-- A list extended by the values that it does not hold yet. -/
def addNew (values more : List Text) : List Text :=
  more.foldl (fun vs v => if vs.contains v then vs else vs ++ [v]) values

/-- What the rules of a category have reported of a literal so far. -/
structure Group where
  category : Text
  /-- The first rule of the category that fired. -/
  rule : Rule
  values : List Text
  deriving Inhabited

/-- A group after a rule of a category has reported values. -/
def Group.extend (g : Group) (category : Text) (values : List Text) : Group :=
  if g.category == category then { g with values := addNew g.values values } else g

/-- The groups after a rule has reported values: they join the group of its category, or start it. -/
def joinGroup (groups : List Group) (r : Rule) (values : List Text) : List Group :=
  if groups.any (·.category == r.category) then groups.map (·.extend r.category values)
  else groups ++ [⟨r.category, r, addNew [] values⟩]

/-- The groups after one more rule. -/
def report (c : Candidate) (groups : List Group) (r : Rule) : List Group :=
  match r.find c with
  | [] => groups
  | values => joinGroup groups r values

/-- What the rules report of a literal, by category in table order. -/
def classify (l : Library) (c : Candidate) : List Finding :=
  let groups := l.rules.foldl (report c) []
  l.categories.filterMap fun k =>
    (groups.find? (·.category == k.name)).map fun g => ⟨k, g.rule, g.values⟩

/-- Why a deprecated pattern cannot be compiled. -/
structure DeprecatedError where
  source : Text
  cause : Regex.Error

def DeprecatedError.message (e : DeprecatedError) : Text :=
  "deprecated pattern " ++ e.source.quoted ++ ": " ++ e.cause.message

/-- The source of a deprecated pattern, which is matched in either letter case. -/
def compileDeprecated (sources : List Text) : Except DeprecatedError (List Pattern) :=
  sources.mapM fun s =>
    match Pattern.compile ("(?i)" ++ s) with
    | .ok p => .ok { p with source := s }
    | .error e => .error ⟨s, e⟩

/-- The library with other deprecated patterns; an empty list keeps the ones it has. -/
def withDeprecated (l : Library) (sources : List Text) : Except DeprecatedError Library :=
  if sources.isEmpty then .ok l
  else (compileDeprecated sources).map fun ps => { l with deprecated := ps }

end Library

end LiteralAudit
