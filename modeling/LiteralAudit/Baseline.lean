import LiteralAudit.History
import LiteralAudit.Report.Codec

/-!
# Performance baselines

The figures of the last good run, against which later runs are compared. A run that takes more than a
fifth longer is a regression.
-/

namespace LiteralAudit

structure Baseline where
  seconds : Float := 0
  files : Int := 0
  score : Float := 0
  updated : Timestamp := .zero
  deriving Inhabited

namespace Baseline

/-- How much longer than the baseline a run may take. -/
def regressionFactor : Float := 1.2

def isRegression (baselineSeconds currentSeconds : Float) : Bool :=
  currentSeconds > baselineSeconds * regressionFactor

/-- The figures of a report, at a time. -/
def ofReport (r : Report) (now : Timestamp) : Baseline where
  seconds := r.seconds
  files := r.files
  score := r.score
  updated := now.utc

def toJson? (b : Baseline) : Option Json := do
  return .record [("scan_duration_seconds", ← Json.ofFloat? b.seconds),
    ("total_files_scanned", .ofInt b.files), ("validation_score", ← Json.ofFloat? b.score),
    ("updated_timestamp", ← Json.ofTimestamp? b.updated)]

def ofMembers? (ms : List (Text × Json)) : Option Baseline := do
  return {
    seconds := ← Json.field? ms "scan_duration_seconds" Json.float? 0
    files := ← Json.field? ms "total_files_scanned" Json.int? 0
    score := ← Json.field? ms "validation_score" Json.float? 0
    updated := ← Json.field? ms "updated_timestamp" Json.timestamp? .zero }

/-- The baseline that a JSON value writes; null is an empty one. -/
def ofJson? : Json → Option Baseline
  | .null => some {}
  | j => (Json.members? j).bind ofMembers?

end Baseline

end LiteralAudit

/-!
## The baseline file

The baseline is one JSON file that is replaced as a whole. A missing file means that there is no
baseline.
-/

namespace LiteralAudit.BaselineFile

inductive Error where
  | read (cause : DiskError)
  | malformed (path : Text)
  | negative (path : Text)
  | unwritable
  | write (cause : Disk.ReplaceError)
  deriving Repr, DecidableEq

def Error.message : Error → Text
  | read cause => "failed to read baseline: " ++ cause.message
  | malformed path => "failed to parse baseline " ++ path ++ ": <cause>"
  | negative path => "baseline " ++ path ++ ": negative scan duration"
  | unwritable => "failed to write baseline: failed to marshal: <cause>"
  | write cause => "failed to write baseline: " ++ cause.message

/-- The baseline that the content of a file writes down. -/
def read (path content : Text) : Except Error Baseline :=
  match (Json.read? content).bind Baseline.ofJson? with
  | none => .error (.malformed path)
  | some b => if b.seconds < 0 then .error (.negative path) else .ok b

/-- The baseline in a file, if there is one. -/
def load (d : Disk) (path : Text) : Except Error (Option Baseline) :=
  match d.contentOf path with
  | .error e => if e.isMissing then .ok none else .error (.read e)
  | .ok content => (read path content).map some

/-- What is written for a baseline. A baseline without a time gets the present one. -/
def text? (b : Baseline) (now : Timestamp) : Option Text :=
  let b := if b.updated.isZero then { b with updated := now.utc } else b
  b.toJson?.map Json.fileText

/-- Replaces the baseline. -/
def store (d : Disk) (path : Text) (b : Baseline) (now : Timestamp) : Attempt Error :=
  match text? b now with
  | none => ⟨some .unwritable, d⟩
  | some content =>
    let a := d.replace path content
    ⟨a.fault?.map .write, a.disk⟩

/-- The disk with the baseline replaced. -/
def save (d : Disk) (path : Text) (b : Baseline) (now : Timestamp) : Except Error Disk :=
  (store d path b now).result

end LiteralAudit.BaselineFile
