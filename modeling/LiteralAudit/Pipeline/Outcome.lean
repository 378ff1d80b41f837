import LiteralAudit.Policy
import LiteralAudit.Report.Codec

/-!
# Outcomes of a pipeline run

A run passes, fails at a gate, or ends in an error. The outcome holds the report it was derived from,
what was compared with the baseline, what was written and who was notified.
-/

namespace LiteralAudit

/-- A run beside the baseline. -/
structure Comparison where
  baselineSeconds : Float := 0
  currentSeconds : Float := 0
  /-- How many times as long as the baseline the run took. -/
  ratio : Float := 0
  baselineScore : Float := 0
  currentScore : Float := 0
  scoreDelta : Float := 0
  baselineFiles : Int := 0
  currentFiles : Int := 0
  baselineUpdated : Timestamp := .zero
  deriving Inhabited

/-- One attempt to notify someone. -/
structure Delivery where
  kind : Text := []
  endpoint : Text := []
  delivered : Bool := false
  /-- The status of the answer; 0 when there was none. -/
  status : Int := 0
  error : Text := []
  deriving Repr, DecidableEq, Inhabited

structure Outcome where
  passed : Bool := false
  exitCode : Int := 0
  failedGate : Text := []
  violations : List Violation := []
  regression : Bool := false
  comparison? : Option Comparison := none
  baselineUpdated : Bool := false
  error : Text := []
  artifacts : List Text := []
  deliveries : List Delivery := []
  report? : Option Report := none
  deriving Inhabited

namespace Exit

def pass : Int := 0

def policyFailure : Int := 1

def executionError : Int := 2

end Exit

namespace Outcome

/-- The outcome in one word. -/
def status (o : Outcome) : Text :=
  if o.exitCode == Exit.executionError then "ERROR" else if o.passed then "PASS" else "FAIL"

end Outcome

namespace Violation

def toJson (v : Violation) : Json :=
  .record [("gate", .string v.gate), ("message", .string v.message)]

/-- The violation with the members of an object read into it. -/
def update? (v : Violation) (j : Json) : Option Violation := do
  let ms ← Json.members? j
  return {
    gate := ← Json.field? ms "gate" Json.text? v.gate
    message := ← Json.field? ms "message" Json.text? v.message }

end Violation

namespace Delivery

def toJson (d : Delivery) : Json :=
  .record ([("kind", .string d.kind), ("endpoint", .string d.endpoint),
    ("delivered", .bool d.delivered)] ++
    Json.omitted (d.status == 0) "status" (.ofInt d.status) ++
    Json.omitted d.error.isEmpty "error" (.string d.error))

/-- The delivery with the members of an object read into it. -/
def update? (d : Delivery) (j : Json) : Option Delivery := do
  let ms ← Json.members? j
  return {
    kind := ← Json.field? ms "kind" Json.text? d.kind
    endpoint := ← Json.field? ms "endpoint" Json.text? d.endpoint
    delivered := ← Json.field? ms "delivered" Json.bool? d.delivered
    status := ← Json.field? ms "status" Json.int? d.status
    error := ← Json.field? ms "error" Json.text? d.error }

end Delivery

namespace Comparison

def toJson? (c : Comparison) : Option Json := do
  return .record [("baseline_duration_seconds", ← Json.ofFloat? c.baselineSeconds),
    ("current_duration_seconds", ← Json.ofFloat? c.currentSeconds),
    ("duration_ratio", ← Json.ofFloat? c.ratio),
    ("baseline_score", ← Json.ofFloat? c.baselineScore),
    ("current_score", ← Json.ofFloat? c.currentScore),
    ("score_delta", ← Json.ofFloat? c.scoreDelta),
    ("baseline_files", .ofInt c.baselineFiles), ("current_files", .ofInt c.currentFiles),
    ("baseline_updated", ← Json.ofTimestamp? c.baselineUpdated)]

/-- The comparison with the members of an object read into it. -/
def update? (c : Comparison) (j : Json) : Option Comparison := do
  let ms ← Json.members? j
  return {
    baselineSeconds := ← Json.field? ms "baseline_duration_seconds" Json.float? c.baselineSeconds
    currentSeconds := ← Json.field? ms "current_duration_seconds" Json.float? c.currentSeconds
    ratio := ← Json.field? ms "duration_ratio" Json.float? c.ratio
    baselineScore := ← Json.field? ms "baseline_score" Json.float? c.baselineScore
    currentScore := ← Json.field? ms "current_score" Json.float? c.currentScore
    scoreDelta := ← Json.field? ms "score_delta" Json.float? c.scoreDelta
    baselineFiles := ← Json.field? ms "baseline_files" Json.int? c.baselineFiles
    currentFiles := ← Json.field? ms "current_files" Json.int? c.currentFiles
    baselineUpdated := ← Json.field? ms "baseline_updated" Json.timestamp? c.baselineUpdated }

end Comparison

namespace Outcome

/-- The fields of an outcome without its report. -/
def fields? (o : Outcome) : Option (List (String × Json)) := do
  let comparison ← match o.comparison? with
    | none => pure []
    | some c => pure [("baseline_comparison", ← c.toJson?)]
  return [("passed", .bool o.passed), ("exit_code", .ofInt o.exitCode)] ++
    Json.omitted o.failedGate.isEmpty "failed_gate" (.string o.failedGate) ++
    Json.omitted o.violations.isEmpty "violations" (.array (o.violations.map Violation.toJson)) ++
    [("performance_regression", .bool o.regression)] ++ comparison ++
    [("baseline_updated", .bool o.baselineUpdated)] ++
    Json.omitted o.error.isEmpty "error" (.string o.error) ++
    Json.omitted o.artifacts.isEmpty "artifacts" (.array (o.artifacts.map .string)) ++
    Json.omitted o.deliveries.isEmpty "notifications" (.array (o.deliveries.map Delivery.toJson))

def ofJson? (j : Json) : Option Outcome := do
  let ms ← Json.members? j
  return {
    passed := ← Json.field? ms "passed" Json.bool? false
    exitCode := ← Json.field? ms "exit_code" Json.int? 0
    failedGate := ← Json.field? ms "failed_gate" Json.text? []
    violations := ← Json.items? ms "violations" Violation.update? default
    regression := ← Json.field? ms "performance_regression" Json.bool? false
    comparison? := ← Json.optional? ms "baseline_comparison" fun c? =>
      Comparison.update? (c?.getD {})
    baselineUpdated := ← Json.field? ms "baseline_updated" Json.bool? false
    error := ← Json.field? ms "error" Json.text? []
    artifacts := ← Json.items? ms "artifacts" (fun _ => Json.text?) []
    deliveries := ← Json.items? ms "notifications" Delivery.update? {} }

end Outcome

end LiteralAudit
