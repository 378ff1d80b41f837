import LiteralAudit.Issue
import LiteralAudit.Time.Timestamp

/-!
# Reports

A report is the result of one scan: when and where it ran, how many files it read, and the issues it
found, with the counts, the score and the readiness level computed from them.
-/

/-!
## Counts by name

A finite map from names to numbers, kept as a list in the byte order of the names, which is the
order in which reports show it.
-/

namespace LiteralAudit

/-- Numbers by name, in the order of the names. -/
abbrev Counts := List (Text × Int)

namespace Counts

/-- The number of a name; a name that is not listed counts nothing. -/
def get (c : Counts) (name : Text) : Int := (c.lookup name).getD 0

/-- The counts with one name set. -/
def set (c : Counts) (name : Text) (n : Int) : Counts :=
  match c with
  | [] => [(name, n)]
  | (k, v) :: rest =>
    match Text.cmp name k with
    | .lt => (name, n) :: (k, v) :: rest
    | .eq => (k, n) :: rest
    | .gt => (k, v) :: set rest name n

/-- The counts with one more of a name. -/
def increment (c : Counts) (name : Text) : Counts := c.set name (c.get name + 1)

/-- How often each name occurs, on top of the counts given. -/
def tally (c : Counts) (names : List Text) : Counts := names.foldl increment c

end Counts

/-! ## The report of a scan -/

/-- How a run differs from the one before it. -/
structure Trend where
  direction : Text := []
  /-- The change of the number of issues in percent; negative when there are fewer. -/
  changePercent : Float := 0
  previousIssues : Int := 0
  currentIssues : Int := 0
  previousScore : Float := 0
  currentScore : Float := 0
  comparedWith : Timestamp := .zero
  newIssues : Int := 0
  resolvedIssues : Int := 0
  deriving Inhabited

/-- What to do about the issues of one kind and severity. -/
structure Recommendation where
  severity : Severity := .other []
  kind : Text := []
  action : Text := []
  impact : Text := []
  count : Int := 0
  files : Int := 0
  deriving Inhabited

/-- The result of one scan. A list or table that was never filled in is `none`. -/
structure Report where
  timestamp : Timestamp := .zero
  root : Text := []
  files : Int := 0
  issues? : Option (List Issue) := none
  bySeverity? : Option Counts := none
  byKind? : Option Counts := none
  score : Float := 0
  readiness : Text := []
  whitelistApplied : Bool := false
  seconds : Float := 0
  /-- The scan was interrupted before it had read every file. -/
  interrupted : Bool := false
  trend? : Option Trend := none
  recommendations : List Recommendation := []
  deriving Inhabited

namespace Report

/-- The issues in the order in which they were found. -/
def issues (r : Report) : List Issue := r.issues?.getD []

/-- The number of issues of a level. -/
def count (r : Report) (s : Severity) : Int := (r.bySeverity?.getD []).get s.name

/-- The names of a list without repetitions, in the order of their first occurrence. -/
def firstSeen (names : List Text) : List Text :=
  (names.foldl (fun seen n => if seen.contains n then seen else n :: seen) []).reverse

/-- The files that have an issue, in the order of their first issue. -/
def filesWithIssues (r : Report) : List Text := firstSeen (r.issues.map (·.file))

end Report

/-!
## What changed between two reports

Issues are matched by their keys, so that one which merely moved to another line is no change. Equal
keys are matched one to one.
-/

structure Diff where
  /-- The issues that only the later report has. -/
  added : List Issue
  /-- The issues that only the earlier report has. -/
  resolved : List Issue
  unchanged : Nat
  deriving Inhabited

namespace Diff

/-- The issues whose keys are not in `keys`, each key being used up by one issue, and the keys that
are left over. -/
def unmatched (keys : List Text) : List Issue → List Issue × List Text
  | [] => ([], keys)
  | i :: rest =>
    if keys.contains i.key then unmatched (keys.erase i.key) rest
    else
      let (issues, left) := unmatched keys rest
      (i :: issues, left)

/-- The issues whose keys are in `keys`, each key being used up by one issue. -/
def taken (keys : List Text) : List Issue → List Issue
  | [] => []
  | i :: rest =>
    if keys.contains i.key then i :: taken (keys.erase i.key) rest else taken keys rest

/-- What changed from one list of issues to another. -/
def ofIssues (before after : List Issue) : Diff :=
  let (added, left) := unmatched (before.map (·.key)) after
  { added, resolved := taken left before, unchanged := after.length - added.length }

def ofReports (before after : Report) : Diff := ofIssues before.issues after.issues

end Diff

/-- How a report differs from the one before it. -/
def Trend.ofReports (current previous : Report) : Trend :=
  let diff := Diff.ofReports previous current
  let before : Int := previous.issues.length
  let now : Int := current.issues.length
  let change := now - before
  { direction := if change < 0 then "improving" else if change > 0 then "degrading" else "stable"
    changePercent := if before > 0 then Float.ofInt change / Float.ofInt before * 100 else 0
    previousIssues := before
    currentIssues := now
    previousScore := previous.score
    currentScore := current.score
    comparedWith := previous.timestamp
    newIssues := diff.added.length
    resolvedIssues := diff.resolved.length }

end LiteralAudit
