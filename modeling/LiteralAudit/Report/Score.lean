import LiteralAudit.Library.Basic
import LiteralAudit.Number.Integer
import LiteralAudit.Report

/-!
# Scores

The score of a report goes from 100, for no issues, down to 0, for ten weighted points a file or
more. `Report.finalize` computes counts, score and readiness from the issues.
-/

namespace LiteralAudit

namespace Score

/-- The points per file that bring the score down to zero. -/
def worstPerFile : Int := 10

/-- The points of issues counted by severity. -/
def points (bySeverity : Counts) : Int :=
  bySeverity.foldl (fun sum (name, n) =>
    Number.wrap64 (sum + Number.wrap64 ((Severity.ofName name).weight * n))) 0

/-- The score of so many issues in so many files. Without files it is 100. -/
def score (bySeverity : Counts) (files : Int) : Float :=
  let worst := Number.wrap64 (files * worstPerFile)
  if worst ≤ 0 then 100
  else
    let score := 100 - Float.ofInt (points bySeverity) * 100 / Float.ofInt worst
    if score > 0 then score else 0

/-- The word for a score. -/
def readiness (score : Float) : Text :=
  if score ≥ 95 then "excellent"
  else if score ≥ 85 then "good"
  else if score ≥ 70 then "warning"
  else if score ≥ 50 then "critical"
  else "severe"

end Score

namespace Report

/-- The number of issues of each level; the four known levels are always listed. -/
def countBySeverity (issues : List Issue) : Counts :=
  Counts.tally ((Severity.known.map (·.name)).foldl (fun c name => c.set name 0) [])
    (issues.map (·.severity.name))

/-- The number of issues of each kind. -/
def countByKind (issues : List Issue) : Counts := Counts.tally [] (issues.map (·.kind))

/-- The report with counts, score and readiness computed from its issues. -/
def finalize (r : Report) : Report :=
  let bySeverity := countBySeverity r.issues
  let score := Score.score bySeverity r.files
  { r with
    issues? := some r.issues
    bySeverity? := some bySeverity
    byKind? := some (countByKind r.issues)
    score := score
    readiness := Score.readiness score }

end Report

end LiteralAudit

/-!
## Recommendations

The issues of a report, grouped by kind and severity, with what to do about each group: the most
severe group first, then the largest, then by name.
-/

namespace LiteralAudit.Recommendation

/-- What identifies the group of an issue. -/
def groupKey (i : Issue) : Text := i.kind ++ ":" ++ i.severity.name

/-- The recommendation for one group of issues. -/
def ofGroup (remediation : Text → Text) (first : Issue) (group : List Issue) : Recommendation :=
  let files := (Report.firstSeen (group.map (·.file))).length
  let action := remediation first.kind
  { severity := first.severity
    kind := first.kind
    action := if action.isEmpty then "Review " ++ first.kind ++ " findings" else action
    impact := Text.ofNat group.length ++ " finding(s) in " ++ Text.ofNat files ++ " file(s), " ++
      Text.ofInt (first.severity.weight * group.length) ++ " weighted point(s)"
    count := group.length
    files := files }

/-- Whether a recommendation comes before another one. -/
def le (a b : Recommendation) : Bool :=
  if a.severity.rank != b.severity.rank then a.severity.rank < b.severity.rank
  else if a.count != b.count then a.count > b.count
  else Text.le a.kind b.kind

/-- The recommendations for a list of issues; `remediation` gives the advice for a kind of issue. -/
def ofIssues (remediation : Text → Text) (issues : List Issue) : List Recommendation :=
  let keys := Report.firstSeen (issues.map groupKey)
  let groups := keys.filterMap fun key =>
    match issues.filter (groupKey · == key) with
    | [] => none
    | first :: rest => some (ofGroup remediation first (first :: rest))
  groups.mergeSort le

end LiteralAudit.Recommendation
