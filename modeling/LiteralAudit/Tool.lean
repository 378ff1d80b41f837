import LiteralAudit.CommandLine.Program
import LiteralAudit.Format.Course
import LiteralAudit.Pipeline
import LiteralAudit.Policy
import LiteralAudit.Tool.Commands
import LiteralAudit.Tool.Job

/-!
# The tool

`Tool.run` carries out a command line on a disk. What each command does is a job of its own; the exit
code follows from how the job ended.
-/

namespace LiteralAudit.Tool

open CommandLine (Options)

/-! ## Scanning -/

/-- The report with the recommendations of a library. -/
def advised (l : Library) (r : Report) : Report :=
  { r with recommendations := Recommendation.ofIssues l.remediation r.issues }

def interruptedAfter (files : Int) : Text :=
  "scan interrupted after " ++ Text.ofInt files ++ " files"

/-- Stores a report with its trend since the last run. -/
def store (c : Config) (s : Session) (log : Log.Sink) (r : Report) : Job Report := do
  let d ← Job.disk
  let dir := c.storagePath d s.environment
  let r := { r with
    trend? := (History.latest d dir).toOption.map fun previous => Trend.ofReports r previous }
  Job.attempt (fun e => "failed to save report: " ++ History.Error.message e) (History.store d dir r)
  Job.note log ⟨.info, "report stored", [("path", History.runPath dir r.timestamp)]⟩
  return r

def runScan (c : Config) (s : Session) (o : Options) (root : Text) : Job Unit := do
  let log ← openLog c c.logFile
  let sc ← makeScanner c
  let r ← Job.require Scanner.Error.message (← scanTree s sc log root (o.list "exclude"))
  if r.interrupted then throw (.execution (interruptedAfter r.files))
  let r := advised sc.library r
  let r ← if o.isOn "save" then store c s log r else pure r
  writeReport s (o.text "output") (o.text "format") r

/-! ## The gate -/

/-- The policy to go by: the one that is named, or the nearest one. -/
def findPolicy (named : Text) : Job (Option Policy) := do
  let d ← Job.disk
  let path? := if named.isEmpty then Policy.find d [] else some named
  match path? with
  | none => return none
  | some path =>
    let p? ← Job.require Policy.Error.message (Policy.load d path)
    if p?.isNone && !named.isEmpty then
      throw (.execution ("policy file not found: " ++ path))
    return p?

/-- The gates of a run: those of the policy, tightened by the flags. The score of the configuration
counts where neither a flag nor a policy is there. -/
def resolveGates (c : Config) (o : Options) : Job Gates := do
  let p? ← findPolicy (o.text "policy")
  let threshold? :=
    if o.isGiven "score-threshold" then some (o.real "score-threshold")
    else if p?.isNone && c.threshold > 0 then some c.threshold
    else none
  let asked : Gates.Overrides :=
    { failOnCritical := o.isOn "fail-on-critical"
      failOnHigh := o.isOn "fail-on-high"
      failOnMedium := o.isOn "fail-on-medium"
      threshold? }
  let g := Gates.override (match p? with
    | some p => p.gates
    | none => {}) asked
  match g.check with
  | some e => throw (.execution e.message)
  | none => return g

/-- The name of the baseline file in the output directory. -/
def baselineName : Text := "performance_baseline.json"

/-- The pipeline of a run. -/
def pipelineOf (c : Config) (s : Session) (o : Options) (d : Disk) (g : Gates) (l : Library) :
    Pipeline where
  gates := g
  outputDir := o.text "output-dir"
  baseline? := some <|
    if (o.text "performance-baseline").isEmpty then Path.join [o.text "output-dir", baselineName]
    else o.text "performance-baseline"
  history? := if o.isOn "no-history" then none else some (c.storagePath d s.environment)
  notifiers := Notifier.ofEndpoints (c.webhooks ++ o.list "webhook-url")
    (c.slack ++ o.list "slack-webhook")
  remediation? := some l.remediation

/-- How a command ends whose pipeline run had an outcome. -/
def ofOutcome (o : Outcome) : Option Failure :=
  if o.exitCode == Exit.pass then none
  else if o.exitCode == Exit.policyFailure then some (.policy o.failedGate)
  else some (.execution (if o.error.isEmpty then "pipeline execution failed" else o.error))

/-- The outcome of a pipeline run as it is printed. -/
def renderOutcome (s : Session) (format : Text) (o : Outcome) : Except Format.Error Text :=
  if format == "json" then Format.outcomeJson o
  else .ok (Format.Plain.outcome { coloured := s.terminal } o)

/-- Does the work of the gate, up to the outcome of its pipeline run. -/
def runGate (c : Config) (s : Session) (o : Options) : Job Outcome := do
  let format := o.text "format"
  if format != "text" && format != "json" then
    throw (.execution ("unsupported format: " ++ format ++ " (use text or json)"))
  let log ← openLog c <|
    if c.logFile.isEmpty then Path.join [o.text "output-dir", "codespectre.log"] else c.logFile
  let g ← resolveGates c o
  Job.note log ⟨.info, "gates resolved", []⟩
  let sc ← makeScanner c
  let p := pipelineOf c s o (← Job.disk) g sc.library
  let scanned ← scanTree s sc log (o.text "project-path") (o.list "exclude")
  let result := p.run s.now s.carry (scanned.mapError Scanner.Error.message) (← Job.disk)
  Job.setDisk result.disk
  modify fun q => { q with requests := q.requests ++ result.requests }
  Job.note log ⟨.info, "gates evaluated", []⟩
  return result.outcome

/-- Prints an outcome and ends as the outcome says. -/
def conclude (s : Session) (format : Text) (outcome : Outcome) : Job Unit := do
  Job.print (← Job.require Format.Error.message (renderOutcome s format outcome))
  if let some f := ofOutcome outcome then throw f

def runValidate (c : Config) (s : Session) (o : Options) : Job Unit := do
  conclude s (o.text "format") (← runGate c s o)

/-! ## Stored reports -/

/-- The text of a JSON value, which cannot always be written. -/
def jsonText (unwritable : Text → Failure) : Option Json → Job Text
  | some j => return j.pretty ++ "\n"
  | none => throw (unwritable "<cause>")

def unsupported (format : Text) : Failure := .execution ("unsupported format: " ++ format)

def runExplain (c : Config) (s : Session) (o : Options) (path : Text) : Job Unit := do
  let e := Explanation.ofReport (← loadReport c s path)
  let format := o.text "format"
  if format == "json" then Job.print (← jsonText .general e.toJson?)
  else if format == "text" then Job.print e.text
  else throw (unsupported format)

/-- The two reports to compare: the last two runs, a file and the last run, or two files. -/
def reportsToCompare (c : Config) (s : Session) (operands : List Text) : Job (Report × Report) := do
  match operands with
  | before :: rest =>
    let before ← loadReport c s before
    let after ← loadReport c s (rest.head?.getD [])
    return (before, after)
  | [] =>
    let d ← Job.disk
    let runs ← Job.require History.Error.message
      (History.last d (c.storagePath d s.environment) 2)
    match runs with
    | [before, after] => return (before, after)
    | _ => throw (.execution
        ("need at least 2 stored runs for diff, found " ++ Text.ofNat runs.length))

/-- The changes in a format. -/
def renderChanges (format : Text) (changes : Changes) : Job Text :=
  if format == "json" then jsonText .execution changes.toJson?
  else if format == "text" then return changes.text
  else throw (unsupported format)

def runDiff (c : Config) (s : Session) (o : Options) (operands : List Text) : Job Unit := do
  let (before, after) ← reportsToCompare c s operands
  let changes := Changes.ofReports before after
  let path := o.text "output"
  if path.isEmpty then Job.print (← renderChanges (o.text "format") changes)
  else
    createFile path
    fillFile path (← renderChanges (o.text "format") changes)
  let added := changes.diff.added.length
  if o.isOn "fail-new" && added > 0 then
    throw (.policy (Text.ofNat added ++ " new issue(s)"))

/-- The message when there is no history. -/
def noHistory : Text :=
  "No stored runs found.\nRun 'codespectre scan <path> --save' to record your first run.\n"

def runHistory (c : Config) (s : Session) (o : Options) : Job Unit := do
  if o.int "last" ≤ 0 then throw (.execution "--last must be positive")
  let d ← Job.disk
  let runs ← match History.last d (c.storagePath d s.environment) (o.int "last") with
    | .ok runs => pure runs
    | .error (.noRuns _) => pure []
    | .error e => throw (.execution e.message)
  let format := o.text "format"
  if runs.isEmpty then Job.print noHistory
  else if format == "json" then Job.print (← jsonText .general (Course.toJson? runs))
  else if format == "text" then
    match Course.text? runs with
    | some t => Job.print t
    | none => throw .undrawable
  else throw (unsupported format)

def runExport (c : Config) (s : Session) (o : Options) (path : Text) : Job Unit := do
  writeReport s (o.text "output") (o.text "format") (← loadReport c s path)

def notTerminal : Text :=
  "browse requires an interactive terminal; use 'codespectre export' instead"

/-! ## Watching -/

/-- A watch that goes on. -/
structure Watching where
  config : Config
  options : Options
  scanner : Scanner
  log : Log.Sink
  root : Text
  watch : Watch
  /-- The report of the last scan. -/
  previous? : Option Report := none

namespace Watching

/-- How long it must be quiet before the next scan. -/
def quiet (w : Watching) : Duration :=
  let asked := w.options.duration "debounce"
  if asked.nanos ≤ 0 then Watch.defaultQuiet else asked

/-- Scans and prints what was found, with the trend since the last scan. An interrupted scan prints
nothing. -/
def rescan (w : Watching) (s : Session) : Job Watching := do
  match ← scanTree s w.scanner w.log w.root [] with
  | .error _ =>
    Job.note w.log ⟨.error, "scan failed", []⟩
    return w
  | .ok r =>
    if r.interrupted then return w
    let r := { advised w.scanner.library r with
      trend? := w.previous?.map fun previous => Trend.ofReports r previous }
    Job.print ("\n[" ++ r.timestamp.utc.timeOfDay ++ "] ")
    Job.print (Format.Plain.report { coloured := s.terminal, limit := w.options.int "limit" } r)
    if w.options.isOn "save" then
      let d ← Job.disk
      let saved := History.store d (w.config.storagePath d s.environment) r
      Job.setDisk saved.disk
      if saved.fault?.isSome then Job.note w.log ⟨.warn, "failed to save run history", []⟩
    return { w with previous? := some r }

end Watching

/-- Starts to watch a directory, with a first scan. -/
def startWatching (c : Config) (s : Session) (o : Options) (root : Text) : Job Watching := do
  let log ← openLog c c.logFile
  let sc ← makeScanner c
  let watch ← Job.require Watch.Error.message
    (Watch.start (← Job.disk) root sc.selection.isRelevant)
  Job.note log ⟨.info, "watching", [("root", root)]⟩
  let w : Watching := { config := c, options := o, scanner := sc, log, root, watch }
  let w ← w.rescan s
  Job.print ("\nWatching " ++ root ++ " for changes (Ctrl+C to stop)\n")
  return w

/-! ## The rest -/

def runInit (o : Options) : Job Unit := do
  let path := o.text "path"
  let d ← Job.disk
  if d.present path && !o.isOn "force" then
    throw (.execution (path ++ " already exists (use --force to overwrite)"))
  let d ← Job.require (fun e => "failed to write config: " ++ DiskError.message e)
    (d.writeFile path Config.sample)
  Job.setDisk d
  Job.print ("Configuration written to " ++ path ++ "\n")

/-- The help text that is asked for by name. -/
def helpFor (operands : List Text) : Text :=
  match program.find operands with
  | .ok (named?, _) => program.help named?
  | .error _ =>
    let topics := Text.join " " (operands.map Text.backquoted)
    "Unknown help topic [" ++ topics ++ "]\n" ++ Text.join "\n" program.usage ++ "\n"

/-- What a command does that ends by itself. -/
def job (s : Session) (c : Config) (name : Text) (o : Options) (operands : List Text) : Job Unit :=
  let operand := operands.head?.getD []
  if name == "scan" then runScan c s o operand
  else if name == "validate" then runValidate c s o
  else if name == "explain-score" then runExplain c s o operand
  else if name == "diff" then runDiff c s o operands
  else if name == "history" then runHistory c s o
  else if name == "export" then runExport c s o operand
  else if name == "browse" then throw (.execution notTerminal)
  else if name == "init" then runInit o
  else if name == "version" then Job.print ("CodeSpectre " ++ s.version ++ "\n")
  else Job.print (helpFor operands)

/-- The configuration of a command. -/
def loadConfig (s : Session) (o : Options) : Job Config := do
  let c ← Job.require (fun e => "failed to load config: " ++ Config.Error.message e)
    (Config.load (← Job.disk) s.environment (o.text "config"))
  return { c with verbose := c.verbose || o.isOn "verbose", debug := c.debug || o.isOn "debug" }

/-- Carries out a command line. One that watches leaves the watch. -/
def perform (s : Session) (args : List Text) : Job (Option Watching) := do
  match program.read args with
  | .error e => throw (.general e.message)
  | .ok (.help named?) => Job.print (program.help named?) *> pure none
  | .ok (.propose asked described) =>
    discard (loadConfig s { flags := [] })
    Job.print ((program.propose asked).text described) *> pure none
  | .ok (.run named o operands) =>
    let c ← loadConfig s o
    let name := named.command.name
    if name == "watch" then some <$> startWatching c s o (operands.head?.getD [])
    else job s c name o operands *> pure none

/-- What a command left, and why it failed if it did. -/
structure Completion where
  disk : Disk
  output : Text
  requests : List Request
  failure? : Option Failure
  /-- The watch that goes on after the command. -/
  watching? : Option Watching := none

def Completion.exitCode (c : Completion) : Int := Tool.exitCode c.failure?

/-- What a job leaves on a disk. -/
def complete (d : Disk) (j : Job (Option Watching)) : Completion :=
  let (result, p) := j.run.run { disk := d }
  let done : Completion :=
    { disk := p.disk, output := p.output, requests := p.requests, failure? := none }
  match result with
  | .ok watching? => { done with watching? }
  | .error f => { done with failure? := some f }

/-- Carries out a command line on a disk. -/
def run (s : Session) (d : Disk) (args : List Text) : Completion := complete d (perform s args)

/-- Goes on with a watch: there were changes, and it has been quiet since. -/
def goOn (s : Session) (d : Disk) (w : Watching) : Completion := complete d (some <$> w.rescan s)

end LiteralAudit.Tool
