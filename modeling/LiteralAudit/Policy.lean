import LiteralAudit.Disk.Basic
import LiteralAudit.Number.Decimal
import LiteralAudit.Report
import LiteralAudit.Text.Quoted
import LiteralAudit.Yaml.Decode

/-!
# Gates

A policy is a set of gates that a report must pass: no issues of a level, a least score, a greatest
number of issues, kinds of issues that are forbidden. Every gate is evaluated, so that a decision
shows all reasons; the first gate that trips gives the decision its name.

A policy file is found in a directory or the nearest one above it (`Policy.find`). What the command
line asks for can only tighten the switches of a policy, but replaces its score.
-/

namespace LiteralAudit

structure Gates where
  failOnCritical : Bool := false
  failOnHigh : Bool := false
  failOnMedium : Bool := false
  /-- The least score that passes. -/
  threshold : Float := 0
  maxIssues? : Option Int := none
  forbidden : List Text := []
  deriving Inhabited

/-- A gate that tripped, and why. -/
structure Violation where
  gate : Text
  message : Text
  deriving Repr, DecidableEq, Inhabited

/-- What the gates say about a report. -/
structure Decision where
  violations : List Violation
  deriving Repr, DecidableEq, Inhabited

namespace Decision

def passes (d : Decision) : Bool := d.violations.isEmpty

/-- The first gate that tripped; empty when none did. -/
def failedGate (d : Decision) : Text := (d.violations.head?.map (·.gate)).getD []

end Decision

namespace Gates

/-- Why gates make no sense. -/
inductive Error where
  | threshold (x : Float)
  | negativeLimit

def Error.message : Error → Text
  | threshold x => "score_threshold " ++ Number.fixedPlaces 1 x ++ " outside 0..100"
  | negativeLimit => "max_issues must not be negative"

/-- The first thing that is wrong with the gates. -/
def check (g : Gates) : Option Error :=
  if g.threshold < 0 || g.threshold > 100 then some (.threshold g.threshold)
  else if g.maxIssues?.any (· < 0) then some .negativeLimit
  else none

/-- The violation of a gate that admits no issue of a level. -/
def levelViolation (on : Bool) (gate : Text) (s : Severity) (r : Report) : List Violation :=
  if on && r.count s > 0 then
    [⟨gate, Text.ofInt (r.count s) ++ " " ++ s.name ++ " issue(s) found"⟩]
  else []

def scoreViolation (g : Gates) (r : Report) : List Violation :=
  if r.score < g.threshold then
    [⟨"score_threshold", "validation score " ++ Number.fixedPlaces 1 r.score ++
      " below threshold " ++ Number.fixedPlaces 1 g.threshold⟩]
  else []

def limitViolation (g : Gates) (r : Report) : List Violation :=
  match g.maxIssues? with
  | none => []
  | some limit =>
    if limit < r.issues.length then
      [⟨"max_issues", "total issues " ++ Text.ofNat r.issues.length ++ " exceeds limit " ++
        Text.ofInt limit⟩]
    else []

def kindViolations (g : Gates) (r : Report) : List Violation :=
  g.forbidden.filterMap fun kind =>
    let n := (r.byKind?.getD []).get kind
    if n > 0 then
      some ⟨"forbid_types", "forbidden issue type " ++ kind.quoted ++ " has " ++ Text.ofInt n ++
        " issue(s)"⟩
    else none

/-- What the gates say about a report. -/
def evaluate (g : Gates) (r : Report) : Decision where
  violations :=
    levelViolation g.failOnCritical "fail_on_critical" .critical r ++
    levelViolation g.failOnHigh "fail_on_high" .high r ++
    levelViolation g.failOnMedium "fail_on_medium" .medium r ++
    g.scoreViolation r ++ g.limitViolation r ++ g.kindViolations r

/-- What the command line asks for. -/
structure Overrides where
  failOnCritical : Bool := false
  failOnHigh : Bool := false
  failOnMedium : Bool := false
  threshold? : Option Float := none
  deriving Inhabited

/-- The gates with what the command line asks for. -/
def override (g : Gates) (o : Overrides) : Gates :=
  { g with
    failOnCritical := g.failOnCritical || o.failOnCritical
    failOnHigh := g.failOnHigh || o.failOnHigh
    failOnMedium := g.failOnMedium || o.failOnMedium
    threshold := o.threshold?.getD g.threshold }

def readGates? (es : List (Text × Yaml.Node)) : Option Gates := do
  return {
    failOnCritical := ← Yaml.field? es "fail_on_critical" Yaml.Node.bool? false
    failOnHigh := ← Yaml.field? es "fail_on_high" Yaml.Node.bool? false
    failOnMedium := ← Yaml.field? es "fail_on_medium" Yaml.Node.bool? false
    threshold := ← Yaml.field? es "score_threshold" Yaml.Node.float? 0
    maxIssues? := ← Yaml.field? es "max_issues" (fun n => (Yaml.Node.int? n).map some) none
    forbidden := ← Yaml.field? es "forbid_types" (Yaml.Node.list? Yaml.Node.text?) [] }

end Gates

structure Policy where
  version : Text := []
  gates : Gates := {}
  deriving Inhabited

namespace Policy

inductive Error where
  | read (cause : DiskError)
  | malformed
  | invalid (path : Text) (cause : Gates.Error)

def Error.message : Error → Text
  | read cause => "read policy: " ++ cause.message
  | malformed => "parse policy: <cause>"
  | invalid path cause => "policy " ++ path ++ ": " ++ cause.message

def readPolicy? (es : List (Text × Yaml.Node)) : Option Policy := do
  return {
    version := ← Yaml.field? es "version" Yaml.Node.text? []
    gates := ← Yaml.field? es "gates" (Yaml.Node.record? Gates.readGates?) {} }

/-- A policy as it is written down; an empty document is an empty policy. -/
def read? (source : Text) : Option Policy :=
  match Yaml.document? source with
  | none => none
  | some none => some {}
  | some (some n) => (Yaml.Node.record? readPolicy? n).map (·.getD {})

/-- The policy in a file; none when there is no file. -/
def load (d : Disk) (path : Text) : Except Error (Option Policy) :=
  match d.contentOf path with
  | .error e => if e.isMissing then .ok none else .error (.read e)
  | .ok source =>
    match read? source with
    | none => .error .malformed
    | some p =>
      match p.gates.check with
      | some e => .error (.invalid path e)
      | none => .ok (some p)

/-- The names of policy files, the preferred one first. -/
def fileNames : List Text := [".codespectre-policy.yaml", ".codespectre-policy.yml"]

/-- Auxiliary to `find`: the policy file nearest to a directory, given by the names from the root in
reverse. -/
def findFrom (d : Disk) : List Text → Option Text
  | [] => here []
  | name :: above => (here (name :: above)).or (findFrom d above)
where
  /-- A policy file in one directory. -/
  here (names : List Text) : Option Text :=
    (fileNames.map fun f => Path.join [Disk.pathOf names.reverse, f]).find? d.present

/-- The policy file nearest to a directory; the working directory when none is given. -/
def find (d : Disk) (dir : Text) : Option Text :=
  findFrom d (Path.parts (d.absolute dir)).reverse

end Policy

end LiteralAudit
