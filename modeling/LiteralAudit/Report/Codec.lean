import LiteralAudit.Json.Basic
import LiteralAudit.Json.Writer
import LiteralAudit.Report

/-!
# Reports as JSON

Reports are kept as JSON. Writing leaves out what says nothing (`root_path`, `readiness_level`,
`partial`, `trend` and `recommendations` when they are empty) and fails on a number or a time that
JSON cannot hold. Reading is the other way round, and takes what is missing for empty.
-/

namespace LiteralAudit

namespace Json

/-- A time; none when its year has no four digits. -/
def ofTimestamp? (t : Timestamp) : Option Json := t.rfc3339?.map .string

def timestamp? : Json → Option Timestamp
  | .string t => Timestamp.readRfc3339? t
  | _ => none

def ofCounts (c? : Option Counts) : Json :=
  match c? with
  | none => .null
  | some c => .object (c.map fun (k, n) => (k, .ofInt n))

/-- A table of counts, read into another one. -/
def counts? (before? : Option Counts) (j : Json) : Option Counts := do
  let ms ← members? j
  ms.foldlM (fun c (k, v) =>
    match v with
    | .null => some (c.set k 0)
    | v => (int? v).map (c.set k)) (before?.getD [])

end Json

namespace Issue

def toJson (i : Issue) : Json :=
  .record ([("file_path", .string i.file), ("line_number", .ofInt i.line),
    ("issue_type", .string i.kind), ("severity", .string i.severity.name),
    ("description", .string i.description), ("pattern_matched", .string i.pattern)] ++
    Json.omitted i.fix.isEmpty "suggested_fix" (.string i.fix))

/-- The issue with the members of an object read into it. -/
def update? (i : Issue) (j : Json) : Option Issue := do
  let ms ← Json.members? j
  return {
    file := ← Json.field? ms "file_path" Json.text? i.file
    line := ← Json.field? ms "line_number" Json.int? i.line
    kind := ← Json.field? ms "issue_type" Json.text? i.kind
    severity := Severity.ofName (← Json.field? ms "severity" Json.text? i.severity.name)
    description := ← Json.field? ms "description" Json.text? i.description
    pattern := ← Json.field? ms "pattern_matched" Json.text? i.pattern
    fix := ← Json.field? ms "suggested_fix" Json.text? i.fix }

end Issue

namespace Trend

def toJson? (t : Trend) : Option Json := do
  return .record [("direction", .string t.direction),
    ("change_percent", ← Json.ofFloat? t.changePercent),
    ("previous_issues", .ofInt t.previousIssues), ("current_issues", .ofInt t.currentIssues),
    ("previous_score", ← Json.ofFloat? t.previousScore),
    ("current_score", ← Json.ofFloat? t.currentScore),
    ("compared_with", ← Json.ofTimestamp? t.comparedWith),
    ("new_issues", .ofInt t.newIssues), ("resolved_issues", .ofInt t.resolvedIssues)]

/-- The trend with the members of an object read into it. -/
def update? (t : Trend) (j : Json) : Option Trend := do
  let ms ← Json.members? j
  return {
    direction := ← Json.field? ms "direction" Json.text? t.direction
    changePercent := ← Json.field? ms "change_percent" Json.float? t.changePercent
    previousIssues := ← Json.field? ms "previous_issues" Json.int? t.previousIssues
    currentIssues := ← Json.field? ms "current_issues" Json.int? t.currentIssues
    previousScore := ← Json.field? ms "previous_score" Json.float? t.previousScore
    currentScore := ← Json.field? ms "current_score" Json.float? t.currentScore
    comparedWith := ← Json.field? ms "compared_with" Json.timestamp? t.comparedWith
    newIssues := ← Json.field? ms "new_issues" Json.int? t.newIssues
    resolvedIssues := ← Json.field? ms "resolved_issues" Json.int? t.resolvedIssues }

end Trend

namespace Recommendation

def toJson (r : Recommendation) : Json :=
  .record [("severity", .string r.severity.name), ("issue_type", .string r.kind),
    ("action", .string r.action), ("impact", .string r.impact), ("count", .ofInt r.count),
    ("files", .ofInt r.files)]

/-- The recommendation with the members of an object read into it. -/
def update? (r : Recommendation) (j : Json) : Option Recommendation := do
  let ms ← Json.members? j
  return {
    severity := Severity.ofName (← Json.field? ms "severity" Json.text? r.severity.name)
    kind := ← Json.field? ms "issue_type" Json.text? r.kind
    action := ← Json.field? ms "action" Json.text? r.action
    impact := ← Json.field? ms "impact" Json.text? r.impact
    count := ← Json.field? ms "count" Json.int? r.count
    files := ← Json.field? ms "files" Json.int? r.files }

end Recommendation

namespace Report

def toJson? (r : Report) : Option Json := do
  let trend ← match r.trend? with
    | none => pure []
    | some t => pure [("trend", ← t.toJson?)]
  let issues := match r.issues? with
    | none => Json.null
    | some is => .array (is.map Issue.toJson)
  return .record (
    [("scan_timestamp", ← Json.ofTimestamp? r.timestamp)] ++
    Json.omitted r.root.isEmpty "root_path" (.string r.root) ++
    [("total_files_scanned", .ofInt r.files), ("issues", issues),
     ("issues_by_severity", .ofCounts r.bySeverity?), ("issues_by_type", .ofCounts r.byKind?),
     ("validation_score", ← Json.ofFloat? r.score)] ++
    Json.omitted r.readiness.isEmpty "readiness_level" (.string r.readiness) ++
    [("whitelist_applied", .bool r.whitelistApplied),
     ("scan_duration_seconds", ← Json.ofFloat? r.seconds)] ++
    Json.omitted (!r.interrupted) "partial" (.bool true) ++ trend ++
    Json.omitted r.recommendations.isEmpty "recommendations"
      (.array (r.recommendations.map Recommendation.toJson)))

/-- The report that an object writes. -/
def ofMembers? (ms : List (Text × Json)) : Option Report := do
  return {
    timestamp := ← Json.field? ms "scan_timestamp" Json.timestamp? .zero
    root := ← Json.field? ms "root_path" Json.text? []
    files := ← Json.field? ms "total_files_scanned" Json.int? 0
    issues? := (← Json.optional? ms "issues" (Json.list? Issue.update? {})).map (·.items)
    bySeverity? := ← Json.optional? ms "issues_by_severity" Json.counts?
    byKind? := ← Json.optional? ms "issues_by_type" Json.counts?
    score := ← Json.field? ms "validation_score" Json.float? 0
    readiness := ← Json.field? ms "readiness_level" Json.text? []
    whitelistApplied := ← Json.field? ms "whitelist_applied" Json.bool? false
    seconds := ← Json.field? ms "scan_duration_seconds" Json.float? 0
    interrupted := ← Json.field? ms "partial" Json.bool? false
    trend? := ← Json.optional? ms "trend" fun t? => Trend.update? (t?.getD {})
    recommendations := ← Json.items? ms "recommendations" Recommendation.update? {} }

/-- The report that a JSON value writes; null is an empty one. -/
def ofJson? : Json → Option Report
  | .null => some {}
  | j => (Json.members? j).bind ofMembers?

end Report

end LiteralAudit
