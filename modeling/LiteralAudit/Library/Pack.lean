import LiteralAudit.Library.Basic
import LiteralAudit.Yaml.Decode

/-!
# Rule packs

A pack adds categories, rules and deprecated patterns to a library. It may change the remediation of
a category that is there, never its severity.

Main notions: `RulePack.read?` for packs as they are written down, and `Library.extend`.
-/

namespace LiteralAudit

/-- A category as a pack gives it; the severity is any text. -/
structure CategorySource where
  name : Text := []
  kind : Text := []
  severity : Text := []
  remediation : Text := []
  deriving Inhabited

structure RulePack where
  categories : List CategorySource := []
  rules : List RuleSource := []
  deprecated : List Text := []
  deriving Inhabited

namespace RulePack

def readCategory? (es : List (Text × Yaml.Node)) : Option CategorySource := do
  return {
    name := ← Yaml.field? es "category" Yaml.Node.text? []
    kind := ← Yaml.field? es "issue_type" Yaml.Node.text? []
    severity := ← Yaml.field? es "severity" Yaml.Node.text? []
    remediation := ← Yaml.field? es "remediation" Yaml.Node.text? [] }

def readRule? (es : List (Text × Yaml.Node)) : Option RuleSource := do
  return {
    id := ← Yaml.field? es "id" Yaml.Node.text? []
    category := ← Yaml.field? es "category" Yaml.Node.text? []
    value := ← Yaml.field? es "value" Yaml.Node.text? []
    numeric := ← Yaml.field? es "numeric" Yaml.Node.text? []
    binding := ← Yaml.field? es "binding" Yaml.Node.text? []
    portRange := ← Yaml.field? es "port_range" Yaml.Node.bool? false
    sensitive := ← Yaml.field? es "sensitive" Yaml.Node.bool? false
    description := ← Yaml.field? es "description" Yaml.Node.text? [] }

def readPack? (es : List (Text × Yaml.Node)) : Option RulePack := do
  let categories :=
    Yaml.field? es "categories" (Yaml.Node.list? (Yaml.Node.record? readCategory?)) []
  let rules := Yaml.field? es "rules" (Yaml.Node.list? (Yaml.Node.record? readRule?)) []
  let deprecated := Yaml.field? es "deprecated_patterns" (Yaml.Node.list? Yaml.Node.text?) []
  return { categories := ← categories, rules := ← rules, deprecated := ← deprecated }

/-- A pack as it is written down; an empty document is an empty pack. -/
def read? (source : Text) : Option RulePack :=
  match Yaml.document? source with
  | none => none
  | some none => some {}
  | some (some n) => (Yaml.Node.record? readPack? n).map (·.getD {})

/-- What is said about a pack that cannot be read. -/
def malformed : Text := "parse rule pack: <cause>"

end RulePack

/-- Why a pack cannot extend a library. -/
inductive PackError where
  | unnamedCategory
  | reclassified (name : Text) (severity : Severity) (wanted : Text)
  | badSeverity (name severity : Text)
  | unknownCategory (rule category : Text)
  | duplicateRule (id : Text)
  | badRule (cause : RuleError)
  | badDeprecated (cause : Library.DeprecatedError)

def PackError.message (e : PackError) : Text :=
  "rule pack: " ++ match e with
    | unnamedCategory => Text.ofString "category without name"
    | reclassified name severity wanted =>
      "category " ++ name ++ " is " ++ severity.name ++ ", cannot reclassify as " ++ wanted
    | badSeverity name severity =>
      "category " ++ name ++ ": invalid severity " ++ severity.quoted
    | unknownCategory rule category =>
      "rule " ++ rule ++ " references unknown category " ++ category.quoted
    | duplicateRule id => "duplicate rule id " ++ id
    | badRule cause => cause.message
    | badDeprecated cause => cause.message

namespace Library

/-- The categories with one more, or with another remediation of one that is there. -/
def addCategory (l : Library) (c : CategorySource) : Except PackError Library :=
  if c.name.isEmpty then .error .unnamedCategory
  else match l.category? c.name with
    | some known =>
      if !c.severity.isEmpty && c.severity != known.severity.name then
        .error (.reclassified c.name known.severity c.severity)
      else if c.remediation.isEmpty then .ok l
      else .ok { l with categories := l.categories.map fun k =>
        if k.name == c.name then { k with remediation := c.remediation } else k }
    | none =>
      let severity := Severity.ofName c.severity
      if !severity.isKnown then .error (.badSeverity c.name c.severity)
      else
        let kind := if c.kind.isEmpty then "custom_" ++ c.name else c.kind
        .ok { l with categories := l.categories ++ [⟨c.name, kind, severity, c.remediation⟩] }

/-- The library with one more rule, whose id must be new and whose category must be there. -/
def addRule (l : Library) (r : RuleSource) : Except PackError Library :=
  if (l.category? r.category).isNone then .error (.unknownCategory r.id r.category)
  else if l.rules.any (·.id == r.id) then .error (.duplicateRule r.id)
  else match r.compile with
    | .error e => .error (.badRule e)
    | .ok rule => .ok { l with rules := l.rules ++ [rule] }

/-- The library with everything that a pack adds. -/
def extend (l : Library) (p : RulePack) : Except PackError Library := do
  let l ← p.categories.foldlM addCategory l
  let l ← p.rules.foldlM addRule l
  match compileDeprecated p.deprecated with
  | .error e => throw (.badDeprecated e)
  | .ok more => return { l with deprecated := l.deprecated ++ more }

end Library

end LiteralAudit
