import LiteralAudit.Baseline
import LiteralAudit.Format
import LiteralAudit.Notify
import LiteralAudit.Report
import LiteralAudit.Report.Score

/-!
# Pipeline runs

A pipeline run takes what a scan gave and decides by the gates whether it passes. Around this decision
it compares the report with the baseline, keeps it in the history, notifies the endpoints and writes
the artifacts. Nothing of that changes the decision: `Pipeline.judge` looks at the report and the
gates only.
-/

namespace LiteralAudit

structure Pipeline where
  gates : Gates := {}
  /-- Where artifacts are written; nowhere when it is empty. -/
  outputDir : Text := []
  /-- The baseline file, when runs are compared with one. -/
  baseline? : Option Text := none
  /-- The directory of the history, when it is kept. -/
  history? : Option Text := none
  notifiers : List Notifier := []
  /-- The advice for a kind of issue, when recommendations are wanted. -/
  remediation? : Option (Text → Text) := none

namespace Pipeline

/-! ## The decision -/

def interruptedMessage : Text := "scan interrupted before all files were analyzed"

/-- The outcome of a run whose scan failed. -/
def ofScanError (message : Text) : Outcome :=
  { exitCode := Exit.executionError, error := message }

/-- The outcome of a run by the gates. A report that is not complete is an error. -/
def judge (g : Gates) (r : Report) : Outcome :=
  let d := g.evaluate r
  let o : Outcome := { failedGate := d.failedGate, violations := d.violations, report? := some r }
  if r.interrupted then { o with exitCode := Exit.executionError, error := interruptedMessage }
  else if d.passes then { o with passed := true, exitCode := Exit.pass }
  else { o with exitCode := Exit.policyFailure }

/-! ## The comparison with the baseline -/

/-- A report beside a baseline. The ratio of the durations is 0 when the baseline has none. -/
def compare (b : Baseline) (r : Report) : Comparison where
  baselineSeconds := b.seconds
  currentSeconds := r.seconds
  ratio := if b.seconds > 0 then r.seconds / b.seconds else 0
  baselineScore := b.score
  currentScore := r.score
  scoreDelta := r.score - b.score
  baselineFiles := b.files
  currentFiles := r.files
  baselineUpdated := b.updated

/-- The outcome with the comparison with what is in the baseline file. A file that cannot be read is
as good as none. -/
def compareWithBaseline (p : Pipeline) (d : Disk) (r : Report) (o : Outcome) : Outcome :=
  match p.baseline?.map (BaselineFile.load d) with
  | some (.ok (some b)) =>
    { o with comparison? := some (compare b r), regression := Baseline.isRegression b.seconds r.seconds }
  | _ => o

/-- A run that passed becomes the baseline. -/
def updateBaseline (p : Pipeline) (now : Timestamp) (r : Report) (o : Outcome) (d : Disk) :
    Outcome × Disk :=
  match p.baseline? with
  | none => (o, d)
  | some path =>
    if !o.passed then (o, d)
    else
      let a := BaselineFile.store d path (.ofReport r now) now
      ({ o with baselineUpdated := a.fault?.isNone }, a.disk)

/-! ## The history -/

/-- The report with what to do about its issues, when that is wanted. -/
def withAdvice (p : Pipeline) (r : Report) : Report :=
  match p.remediation? with
  | some advice => { r with recommendations := Recommendation.ofIssues advice r.issues }
  | none => r

/-- The report with its trend since the last run of the history. -/
def withTrend (p : Pipeline) (d : Disk) (r : Report) : Report :=
  match p.history?.map (History.latest d) with
  | some (.ok previous) => { r with trend? := some (Trend.ofReports r previous) }
  | _ => r

/-- The disk with a complete report kept in the history. -/
def keep (p : Pipeline) (r : Report) (d : Disk) : Disk :=
  match p.history? with
  | none => d
  | some dir => if r.interrupted then d else (History.store d dir r).disk

/-! ## Artifacts -/

/-- The formats of a report among the artifacts. -/
def artifactFormats : List Text := List.map Text.ofString ["json", "html", "csv", "junit"]

/-- The disk with a file of a rendered text, and whether it was written. When the text cannot be
rendered or written, no file is left; a file that cannot be closed stays, but does not count. -/
def writeArtifact (path : Text) (text : Except Format.Error Text) (d : Disk) : Bool × Disk :=
  match d.writeFile path (text.toOption.getD []) with
  | .error _ => (false, d)
  | .ok written =>
    if text.isOk && (d.refuses .write path).isNone then ((d.refuses .close path).isNone, written)
    else (false, written.removeAll path)

/-- The texts of the artifacts of a run and the names of their files. -/
def artifacts (now : Timestamp) (r : Report) (o : Outcome) : List (Text × Except Format.Error Text) :=
  let stamp := (if r.timestamp.isZero then now else r.timestamp).fileStamp
  artifactFormats.map (fun format =>
    (("validation_report_" ++ stamp ++ "." ++ Format.fileEnding format : Text),
      Format.write format r)) ++
  [("pipeline_summary_" ++ stamp ++ ".md", .ok (Format.Markdown.outcome o))]

/-- The disk with the artifacts, and the paths of those that could be written. -/
def writeArtifacts (p : Pipeline) (now : Timestamp) (r : Report) (o : Outcome) (d : Disk) :
    List Text × Disk :=
  if p.outputDir.isEmpty then ([], d)
  else
    let made := d.makeDirs p.outputDir
    if made.fault?.isSome then ([], made.disk)
    else (artifacts now r o).foldl (fun (written, d) (name, text) =>
      let path := Path.join [p.outputDir, name]
      match writeArtifact path text d with
      | (true, d) => (written ++ [path], d)
      | (false, d) => (written, d)) ([], made.disk)

/-! ## The run -/

/-- What a run leaves: its outcome, the disk, and the requests that it sent. -/
structure Result where
  outcome : Outcome
  disk : Disk
  requests : List Request := []

/-- The outcome of a run and the disk that it leaves once it has dealt with the baseline. The baseline is
read before it is replaced, and nothing else is written before. -/
def settle (p : Pipeline) (now : Timestamp) (r : Report) (d : Disk) : Outcome × Disk :=
  p.updateBaseline now r (p.compareWithBaseline d r (judge p.gates r)) d

/-- A run on what a scan gave. -/
def run (p : Pipeline) (now : Timestamp) (carry : Transport) (scan : Except Text Report) (d : Disk) :
    Result :=
  match scan with
  | .error message => { outcome := ofScanError message, disk := d }
  | .ok r =>
    let r := p.withTrend d (p.withAdvice r)
    let (o, d) := p.settle now r d
    let d := p.keep r d
    let payload := Payload.ofOutcome o
    let o := { o with deliveries := Notifier.dispatch p.notifiers carry payload }
    let (written, d) := p.writeArtifacts now r o d
    { outcome := { o with artifacts := written }
      disk := d
      requests := Notifier.requests p.notifiers payload }

end Pipeline

end LiteralAudit
