import LiteralAudit.Library.Basic
import LiteralAudit.Disk.Basic
import LiteralAudit.Glob
import LiteralAudit.Library.Builtin
import LiteralAudit.Report.Score
import LiteralAudit.Scan.Pool
import LiteralAudit.Visit

/-!
# Scanning a directory

A scan looks at every regular file below a directory that the selection admits, in the byte order of
names, directories at their place among them. Links are not followed. Each file is audited for
hardcoded values and for deprecated identifiers, by a pool of workers that share the files.

A scan can be cancelled at any moment. The walk then stops at the next entry, and of the files that it
found no more are handed to the workers; what they are at is finished. `Scanner.scanAlong` is a scan
with all that may happen around it (`Timing`): when it is cancelled, and who of the pool acts when. A
scan that is cancelled before it starts reads nothing, and its report is marked as interrupted.
-/

/-!
## Deprecated identifiers

The text of every file is read line by line, whatever its language, and each deprecated pattern that
matches a line is an issue. No whitelist applies.
-/

namespace LiteralAudit.LineScan

/-- The issue of a file that cannot be read. -/
def readError (path cause : Text) : Issue where
  file := path
  line := 1
  kind := Issue.componentScanError
  severity := .medium
  description := "failed to read file: " ++ cause
  pattern := "read"
  fix := "Check file permissions and encoding"

/-- The issue of a line that a deprecated pattern matches. -/
def found (path fix : Text) (line : Nat) (p : Pattern) : Issue where
  file := path
  line := line
  kind := Issue.deprecatedComponent
  severity := .high
  description := "Deprecated architecture pattern " ++ p.source.quoted ++ " found"
  pattern := p.source
  fix := fix

/-- The issues of a text: one for each line and pattern that match. -/
def issuesOf (patterns : List Pattern) (fix path source : Text) : List Issue :=
  if patterns.isEmpty then []
  else
    let (lines, tooLong) := source.scanLines Text.lineLimit
    let issues := (lines.zipIdx 1).flatMap fun (line, number) =>
      (patterns.filter (·.matchesIn line)).map (found path fix number)
    if tooLong then issues ++ [readError path Text.lineTooLong] else issues

/-- The issues that the deprecated patterns of a library find. -/
def issues (l : Library) (path source : Text) : List Issue :=
  issuesOf l.deprecated (l.remediation Issue.deprecatedComponent) path source

end LiteralAudit.LineScan

/-! ## The scan -/

namespace LiteralAudit

/-- How to scan. -/
structure Scanner where
  library : Library
  whitelist? : Option Whitelist
  selection : Selection
  /-- How many files are audited at a time. -/
  workers : Nat := 1
  workers_pos : 0 < workers := by decide

instance : Inhabited Scanner := ⟨{ library := default, whitelist? := none, selection := default }⟩

namespace Scanner

inductive Error where
  | badInclude (cause : Glob.Error)
  | badExclude (cause : Glob.Error)
  | badRoot (cause : DiskError)

def Error.message : Error → Text
  | badInclude cause => "include patterns: " ++ cause.message
  | badExclude cause => "exclude patterns: " ++ cause.message
  | badRoot cause => "scan root: " ++ cause.message

/-- A scanner for the globs given. -/
def ofGlobs (library : Library) (whitelist? : Option Whitelist) (included excluded : List Text) :
    Except Error Scanner := do
  let included ← match Glob.compile included with
    | .ok gs => pure gs
    | .error e => throw (.badInclude e)
  let excluded ← match Glob.compile excluded with
    | .ok gs => pure gs
    | .error e => throw (.badExclude e)
  return { library, whitelist?, selection := { included, excluded } }

/-- The scanner with more globs that exclude files. -/
def excluding (s : Scanner) (more : List Text) : Except Error Scanner :=
  match Glob.compile more with
  | .ok gs => .ok { s with selection.excluded := s.selection.excluded ++ gs }
  | .error e => .error (.badExclude e)

mutual

/-- What the walk below a directory sees at each entry that it looks at, in order: a file that the
selection admits, by its path from the root of the scan and with its content, or nothing of
interest. -/
def visits (s : Selection) (above : Text) : Entry → List (Option (Text × Text))
  | .dir entries => visitsIn s above entries
  | _ => []

def visitsIn (s : Selection) (above : Text) : List (Text × Entry) → List (Option (Text × Text))
  | [] => []
  | (name, e) :: rest =>
    let path := above ++ name
    let here := match e with
      | .dir entries =>
        none :: if Glob.excludes s.excluded path name true then []
          else visitsIn s (path ++ "/") entries
      | .file content =>
        [if s.includes path name && !Glob.excludes s.excluded path name false
          then some (path, content) else none]
      | .link _ => [none]
    here ++ visitsIn s above rest

end

/-- What a walk found. -/
structure Discovery where
  files : List (Text × Text) := []
  /-- The scan was cancelled before the walk had looked at every entry. -/
  interrupted : Bool := false

/-- What a walk found that was cancelled after so many entries, or not at all. -/
def Discovery.ofVisits (seen : List (Option (Text × Text))) : Option Nat → Discovery
  | none => { files := seen.filterMap id }
  | some n => { files := (seen.take n).filterMap id, interrupted := n < seen.length }

/-- The files to scan. A root that is a file is scanned alone, under its own name; the walk looks at a
root that is a directory before what is in it, and does not follow a link to a directory. -/
def discovery (s : Scanner) (d : Disk) (cancelledAfter? : Option Nat) (root : Text) :
    Except Error Discovery :=
  match d.stat root with
  | .error e => .error (.badRoot e)
  | .ok (.dir _) =>
    let below := match d.lstat root with
      | .ok e => visits s.selection [] e
      | .error _ => []
    .ok (.ofVisits (none :: below) cancelledAfter?)
  | .ok e =>
    let name := Path.base root
    let content := match e with
      | .file content => content
      | _ => []
    .ok { files := if s.selection.includes name name &&
        !Glob.excludes s.selection.excluded name name false then [(name, content)] else [] }

/-- The issues of one file. -/
def audit (s : Scanner) (path content : Text) : List Issue :=
  Visit.issues s.library s.whitelist? path content ++ LineScan.issues s.library path content

/-- Whether a scan runs to its end. -/
structure Run where
  started : Timestamp
  seconds : Float := 0
  cancelled : Bool := false

/-- What happens around a scan. -/
structure Timing where
  /-- How many entries the walk looks at before the scan is cancelled; `none` when it is not cancelled
  before the first file is handed out. -/
  cancelledAfter? : Option Nat := none
  /-- In which order the parties of the pool act at first, and when among them the scan is cancelled. -/
  schedule : List Pool.Action := []

/-- The pool of a scan before anyone has acted; the scan may have been cancelled before. -/
def pool (s : Scanner) (found : Discovery) (cancelled : Bool) : Pool (Text × Text) (List Issue) :=
  Pool.start found.files s.workers cancelled

/-- What a worker of the pool does with a file. -/
def auditFile (s : Scanner) (file : Text × Text) : List Issue := s.audit file.1 file.2

/-- The report on what the workers found. -/
def report (s : Scanner) (run : Run) (root : Text) (found : Discovery)
    (results : List (List Issue)) : Report :=
  let r : Report := {
    timestamp := run.started.utc
    root := root
    files := results.length
    issues? := some results.flatten
    whitelistApplied := s.whitelist?.any (·.applies)
    interrupted := found.interrupted || results.length < found.files.length }
  { r.finalize with seconds := run.seconds }

/-- The report of a scan. `more` are globs that exclude files of this scan only. -/
def scanAlong (s : Scanner) (d : Disk) (run : Run) (t : Timing) (root : Text) (more : List Text) :
    Except Error Report := do
  /- The root is looked at before the globs. -/
  if let .error e := d.stat root then throw (.badRoot e)
  let s ← s.excluding more
  let found ← s.discovery d t.cancelledAfter? root
  let p := (s.pool found t.cancelledAfter?.isSome).play s.auditFile t.schedule
  return s.report run root found (p.drive s.auditFile).results

/-- The report of a scan that is not disturbed, or is cancelled before it starts. -/
def scan (s : Scanner) (d : Disk) (run : Run) (root : Text) (more : List Text) :
    Except Error Report :=
  s.scanAlong d run { cancelledAfter? := if run.cancelled then some 0 else none } root more

end Scanner

end LiteralAudit
