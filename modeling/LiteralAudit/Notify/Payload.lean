import LiteralAudit.Number.Decimal
import LiteralAudit.Pipeline.Outcome
import LiteralAudit.Text.Quoted

/-!
# Payloads

A payload tells the outcome of a run to the world: as JSON for programs and as a short text for
people.
-/

namespace LiteralAudit

structure Payload where
  event : Text := []
  status : Text := []
  passed : Bool := false
  exitCode : Int := 0
  failedGate : Text := []
  violations : List Violation := []
  root : Text := []
  timestamp : Timestamp := .zero
  files : Int := 0
  issues : Int := 0
  bySeverity : Counts := []
  score : Float := 0
  readiness : Text := []
  regression : Bool := false
  error : Text := []
  deriving Inhabited

namespace Payload

/-- The summary of an outcome; what concerns the report is empty when there is none. -/
def ofOutcome (o : Outcome) : Payload :=
  let p : Payload := {
    event := "codespectre.pipeline"
    status := o.status
    passed := o.passed
    exitCode := o.exitCode
    failedGate := o.failedGate
    violations := o.violations
    regression := o.regression
    error := o.error }
  match o.report? with
  | none => p
  | some r => { p with
      root := r.root
      timestamp := r.timestamp
      files := r.files
      issues := r.issues.length
      bySeverity := r.bySeverity?.getD []
      score := r.score
      readiness := r.readiness }

def toJson? (p : Payload) : Option Json := do
  let timestamp ← Json.ofTimestamp? p.timestamp
  let score ← Json.ofFloat? p.score
  return .record (
    [("event", .string p.event), ("status", .string p.status), ("passed", .bool p.passed),
      ("exit_code", .ofInt p.exitCode)] ++
    Json.omitted p.failedGate.isEmpty "failed_gate" (.string p.failedGate) ++
    Json.omitted p.violations.isEmpty "violations" (.array (p.violations.map Violation.toJson)) ++
    Json.omitted p.root.isEmpty "root_path" (.string p.root) ++
    [("scan_timestamp", timestamp), ("total_files_scanned", .ofInt p.files),
      ("total_issues", .ofInt p.issues)] ++
    Json.omitted p.bySeverity.isEmpty "issues_by_severity" (Json.ofCounts (some p.bySeverity)) ++
    [("validation_score", score)] ++
    Json.omitted p.readiness.isEmpty "readiness_level" (.string p.readiness) ++
    [("performance_regression", .bool p.regression)] ++
    Json.omitted p.error.isEmpty "error" (.string p.error))

def ofJson? (j : Json) : Option Payload := do
  let ms ← Json.members? j
  return {
    event := ← Json.field? ms "event" Json.text? []
    status := ← Json.field? ms "status" Json.text? []
    passed := ← Json.field? ms "passed" Json.bool? false
    exitCode := ← Json.field? ms "exit_code" Json.int? 0
    failedGate := ← Json.field? ms "failed_gate" Json.text? []
    violations := ← Json.items? ms "violations" Violation.update? default
    root := ← Json.field? ms "root_path" Json.text? []
    timestamp := ← Json.field? ms "scan_timestamp" Json.timestamp? .zero
    files := ← Json.field? ms "total_files_scanned" Json.int? 0
    issues := ← Json.field? ms "total_issues" Json.int? 0
    bySeverity := (← Json.optional? ms "issues_by_severity" Json.counts?).getD []
    score := ← Json.field? ms "validation_score" Json.float? 0
    readiness := ← Json.field? ms "readiness_level" Json.text? []
    regression := ← Json.field? ms "performance_regression" Json.bool? false
    error := ← Json.field? ms "error" Json.text? [] }

/-! ## Checks -/

/-- Why a payload is not sent. -/
inductive Fault where
  | status (text : Text)
  | exitCode
  | score
  | counts
  | readiness (text : Text)
  deriving Repr, DecidableEq

def Fault.message : Fault → Text
  | status text => "unsupported status " ++ text.quoted
  | exitCode => "exit_code must be 0, 1 or 2"
  | score => "validation_score must be between 0 and 100"
  | counts => "counts must not be negative"
  | readiness text => "unsupported readiness level " ++ text.quoted

def statuses : List Text := ["PASS", "FAIL", "ERROR"]

def readinessLevels : List Text :=
  List.map Text.ofString ["", "excellent", "good", "warning", "critical", "severe"]

/-- What is wrong with a payload, if anything is. -/
def fault? (p : Payload) : Option Fault :=
  if !statuses.contains p.status then some (.status p.status)
  else if p.exitCode < 0 || 2 < p.exitCode then some .exitCode
  else if p.score < 0 || p.score > 100 then some .score
  else if p.files < 0 || p.issues < 0 then some .counts
  else if !readinessLevels.contains p.readiness then some (.readiness p.readiness)
  else none

/-! ## The text for people -/

def icon (p : Payload) : Text :=
  if p.status == "FAIL" then ":x:"
  else if p.status == "ERROR" then ":warning:"
  else ":white_check_mark:"

def headline (p : Payload) : Text :=
  p.icon ++ " *CodeSpectre " ++ p.status ++ "* (exit " ++ Text.ofInt p.exitCode ++ ")" ++
  (if p.root.isEmpty then [] else " for `" ++ p.root ++ "`" : Text)

def figures (p : Payload) : Text :=
  let count (s : Severity) : Text := Text.ofInt (p.bySeverity.get s.name)
  "\nScore: " ++ Number.fixedPlaces 1 p.score ++ "/100 (" ++ p.readiness ++ ")" ++
  "\nIssues: " ++ Text.ofInt p.issues ++ " in " ++ Text.ofInt p.files ++
  " files (critical " ++ count .critical ++ ", high " ++ count .high ++
  ", medium " ++ count .medium ++ ", low " ++ count .low ++ ")" ++
  (if p.failedGate.isEmpty then [] else "\nFailed gate: " ++ p.failedGate : Text) ++
  (if p.regression then "\nPerformance regression against baseline" else [] : Text)

/-- The payload in words. An error stands in place of the figures. -/
def message (p : Payload) : Text :=
  p.headline ++ if p.error.isEmpty then p.figures else "\nError: " ++ p.error

end Payload

end LiteralAudit
