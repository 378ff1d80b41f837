import LiteralAudit.Config
import LiteralAudit.History
import LiteralAudit.Log
import LiteralAudit.Notify
import LiteralAudit.Scan
import LiteralAudit.Format

/-!
# Jobs

A command of the tool is a job: it runs in a session, prints, changes the disk, sends requests, and may
fail. What it did before it failed stays done.
-/

namespace LiteralAudit.Tool

/-- Why a command failed. -/
inductive Failure where
  /-- The command line is wrong, or an output cannot be written. -/
  | general (message : Text)
  /-- The command could not do its work. -/
  | execution (message : Text)
  /-- The command did its work, and a gate tripped. -/
  | policy (reason : Text)
  /-- A number is too far from the others for a bar to be drawn. -/
  | undrawable
  deriving Repr, DecidableEq, Inhabited

def Failure.message : Failure → Text
  | general message => message
  | execution message => message
  | policy reason => "policy failure: " ++ reason
  | undrawable => "value without a bar"

/-- The exit code of a command, by how it ended. -/
def exitCode : Option Failure → Int
  | none => Exit.pass
  | some (.policy _) => Exit.policyFailure
  | some _ => Exit.executionError

/-- What a command finds when it is started. -/
structure Session where
  environment : Environment := {}
  version : Text := "dev"
  now : Timestamp
  /-- How long a scan takes. -/
  seconds : Float := 0
  /-- The command was interrupted before it could start. -/
  cancelled : Bool := false
  /-- What carries requests. -/
  carry : Transport := fun _ => .answer 200 []
  /-- Whether the output goes to a terminal. -/
  terminal : Bool := false

/-- What a command has done so far. -/
structure Progress where
  disk : Disk
  output : Text := []
  requests : List Request := []

/-- A part of a command. -/
abbrev Job := ExceptT Failure (StateM Progress)

namespace Job

def print (t : Text) : Job Unit := modify fun p => { p with output := p.output ++ t }

def disk : Job Disk := do return (← get).disk

def setDisk (d : Disk) : Job Unit := modify fun p => { p with disk := d }

/-- Goes on with a result, or fails because the work cannot be done. -/
def require (message : ε → Text) : Except ε α → Job α
  | .ok a => return a
  | .error e => throw (.execution (message e))

/-- Goes on after a change of the disk, or fails because it could not be made completely. -/
def attempt (message : ε → Text) (a : Attempt ε) : Job Unit := do
  setDisk a.disk
  if let some e := a.fault? then throw (.execution (message e))

/-- Writes an entry to the log. -/
def note (s : Log.Sink) (e : Log.LogEntry) : Job Unit :=
  modify fun p => { p with disk := s.append p.disk [e] }

end Job

/-! ## What commands share -/

/-- The log of a command. -/
def openLog (c : Config) (file : Text) : Job Log.Sink := do
  let s : Log.Sink := { verbose := c.verbose, debug := c.debug, file }
  Job.attempt (fun e => "failed to open log file: " ++ DiskError.message e) (s.prepare (← Job.disk))
  if !c.missingFile.isEmpty then
    Job.note s ⟨.warn, "config file not found, using defaults", [("path", c.missingFile)]⟩
  else if !c.file.isEmpty then Job.note s ⟨.debug, "config loaded", [("path", c.file)]⟩
  return s

/-- The scanner of a configuration. -/
def makeScanner (c : Config) : Job Scanner := do
  let l ← Job.require Config.LibraryError.message (c.library (← Job.disk))
  let w ← Job.require WhitelistError.message (Whitelist.ofConfig c.whitelist)
  Job.require Scanner.Error.message (Scanner.ofGlobs l (some w) c.included c.excluded)

/-- The report of a scan; what went wrong is left to the caller. -/
def scanTree (s : Session) (sc : Scanner) (log : Log.Sink) (root : Text) (more : List Text) :
    Job (Except Scanner.Error Report) := do
  let result := sc.scan (← Job.disk) ⟨s.now, s.seconds, s.cancelled⟩ root more
  if let .ok r := result then
    Job.note log ⟨.info, "scan started", [("root", root)]⟩
    if r.interrupted then Job.note log ⟨.warn, "scan interrupted", []⟩
    Job.note log ⟨.info, "scan finished", []⟩
  return result

/-- A stored report: the one in a file, or that of the last run when no file is named. -/
def loadReport (c : Config) (s : Session) (path : Text) : Job Report := do
  let d ← Job.disk
  if !path.isEmpty then Job.require History.Error.message (History.loadFile d path)
  else
    Job.require (fun e =>
        "no stored runs found, run 'codespectre scan --save' first: " ++ History.Error.message e)
      (History.latest d (c.storagePath d s.environment))

/-!
## Writing reports

A report goes to a file or to the output. A file is created before anything is rendered, so a report
that cannot be rendered leaves it empty.
-/

/-- The ending of a path's last name, with its point. -/
def ending (path : Text) : Text :=
  let name := (path.reverse.takeWhile fun (b : UInt8) => b != '/').reverse
  match Text.lastIndexOfByte? name '.' with
  | some i => name.drop i
  | none => []

/-- The format that the ending of an output file asks for; without a file, text. -/
def formatOf (path : Text) : Text :=
  let e := Text.toLower (ending path)
  if path.isEmpty then "text"
  else if e == ".html" || e == ".htm" then "html"
  else if e == ".csv" then "csv"
  else if e == ".xml" then "junit"
  else if e == ".sarif" then "sarif"
  else if e == ".txt" then "text"
  else "json"

/-- A report in a format; reports name the version of the tool where the format has room for it. -/
def renderReport (s : Session) (format : Text) (coloured : Bool) (r : Report) :
    Except Format.Error Text :=
  let name := Text.toLower format
  if name == "text" then .ok (Format.Plain.report { coloured } r)
  else if name == "sarif" then .ok (Format.Sarif.report s.version r)
  else Format.write format r

/-- Creates a file, or empties it if it is there. -/
def createFile (path : Text) : Job Unit := do
  let d ← Job.require (fun e => "failed to create output file: " ++ DiskError.message e)
    ((← Job.disk).writeFile path [])
  Job.setDisk d

/-- Fills a file that was created. -/
def fillFile (path content : Text) : Job Unit := do
  let d ← Job.require DiskError.message ((← Job.disk).writeFile path content)
  Job.setDisk d

/-- Writes a report to a file, or prints it when no file is named. -/
def writeReport (s : Session) (path format : Text) (r : Report) : Job Unit := do
  let format := if format.isEmpty then formatOf path else format
  if path.isEmpty then
    Job.print (← Job.require Format.Error.message (renderReport s format s.terminal r))
  else
    createFile path
    fillFile path (← Job.require Format.Error.message (renderReport s format false r))
    Job.print ("Report written to " ++ path ++ "\n")

end LiteralAudit.Tool
