import LiteralAudit.Disk.Basic
import LiteralAudit.Json.Reader
import LiteralAudit.Report.Codec

/-!
# The history of reports

Each report is kept in a file of its own, named by the second of its scan in universal time, in the
directory `runs` below the history's directory. A report of the same second is replaced. Files that
are not named like this are not part of the history.
-/

namespace LiteralAudit

/-- What is written for a JSON value kept in a file. -/
def Json.fileText (j : Json) : Text := j.pretty ++ "\n"

namespace History

inductive Error where
  | createDirectory (cause : DiskError)
  | unwritable
  | store (cause : Disk.ReplaceError)
  | readDirectory (cause : DiskError)
  | noRuns (dir : Text)
  | notFound (path : Text)
  | read (cause : DiskError)
  | malformed (path : Text)
  deriving Repr, DecidableEq

def Error.message : Error → Text
  | createDirectory cause => "create runs directory: " ++ cause.message
  | unwritable => "store run: failed to marshal: <cause>"
  | store cause => "store run: " ++ cause.message
  | readDirectory cause => "read runs directory: " ++ cause.message
  | noRuns dir => "no stored runs in " ++ dir
  | notFound path => "report not found: " ++ path
  | read cause => "read report: " ++ cause.message
  | malformed path => "decode report " ++ path ++ ": <cause>"

def reportSuffix : Text := "-report.json"

def runsDir (dir : Text) : Text := Path.join [dir, "runs"]

/-- The file of the report of a scan. -/
def runPath (dir : Text) (t : Timestamp) : Text :=
  Path.join [runsDir dir, t.utc.runStamp ++ reportSuffix]

/-- Stores a report. -/
def store (d : Disk) (dir : Text) (r : Report) : Attempt Error :=
  let made := d.makeDirs (runsDir dir)
  match made.fault?, r.toJson? with
  | some e, _ => ⟨some (.createDirectory e), made.disk⟩
  | none, none => ⟨some .unwritable, made.disk⟩
  | none, some j =>
    let a := made.disk.replace (runPath dir r.timestamp) j.fileText
    ⟨a.fault?.map .store, a.disk⟩

/-- The disk with a report stored, and where it is. -/
def save (d : Disk) (dir : Text) (r : Report) : Except Error (Disk × Text) :=
  (store d dir r).result.map fun d => (d, runPath dir r.timestamp)

/-- The report in a file. -/
def loadFile (d : Disk) (path : Text) : Except Error Report :=
  match d.contentOf path with
  | .error e => .error (if e.isMissing then .notFound path else .read e)
  | .ok content =>
    match (Json.read? content).bind Report.ofJson? with
    | some r => .ok r
    | none => .error (.malformed path)

/-- The report of a scan. -/
def load (d : Disk) (dir : Text) (t : Timestamp) : Except Error Report :=
  loadFile d (runPath dir t)

/-- The scan that a file of the history belongs to. -/
def stampOf? (name : Text) (e : Entry) : Option Timestamp :=
  if e.isDir || !name.endsWith reportSuffix then none
  else Timestamp.readRunStamp? (Text.dropBack reportSuffix name)

/-- The scans of the history in the order of time. -/
def list (d : Disk) (dir : Text) : Except Error (List Timestamp) :=
  match d.readDir (runsDir dir) with
  | .error e => if e.isMissing then .ok [] else .error (.readDirectory e)
  | .ok entries =>
    .ok ((entries.filterMap fun (name, e) => stampOf? name e).mergeSort fun a b => !b.before a)

/-- The report of the last scan. -/
def latest (d : Disk) (dir : Text) : Except Error Report := do
  match (← list d dir).getLast? with
  | none => throw (.noRuns dir)
  | some t => load d dir t

/-- The last `n` scans, or all of them for `n ≤ 0`. Those that cannot be read are left out. -/
def last (d : Disk) (dir : Text) (n : Int) : Except Error (List Report) := do
  let stamps ← list d dir
  if stamps.isEmpty then throw (.noRuns dir)
  let chosen := if 0 < n && n < stamps.length then stamps.drop (stamps.length - n.toNat) else stamps
  return chosen.filterMap fun t => (load d dir t).toOption

end History

end LiteralAudit
