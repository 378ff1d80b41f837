import LiteralAudit.Disk.Basic
import LiteralAudit.Tool
import Std.Time.DateTime.Timestamp

/-!
# The command line

The world around the tool: the files of the working directory and those that the command line and the
settings name are read into a disk, the tool is run on it, and what it changed is written back. A watch
goes on by looking at the files again.
-/

namespace LiteralAudit.World

/-! ## Bytes -/

def ofBytes (b : ByteArray) : Text := b.toList

def toBytes (t : Text) : ByteArray := ⟨t.toArray⟩

/-- A path for the system. Names that are not text cannot be asked for. -/
def pathString (path : Text) : String := (String.fromUTF8? (toBytes path)).getD ""

/-! ## Reading -/

/-- What is at a path, with all that a directory holds. A link keeps the place where it leads. -/
partial def readEntry? (path : String) : IO (Option Entry) := do
  let path := (← IO.currentDir) / path
  try
    match (← path.symlinkMetadata).type with
    | .file => return some (.file (ofBytes (← IO.FS.readBinFile path)))
    | .symlink => return some (.link (Text.ofString (← IO.FS.realPath path).toString))
    | .dir =>
      let mut entries : List (Text × Entry) := []
      for item in ← path.readDir do
        if let some e ← readEntry? item.path.toString then
          entries := Entry.insert (Text.ofString item.fileName) e entries
      return some (.dir entries)
    | .other => return none
  catch _ => return none

/-- The disk with what is at some paths. -/
def readPaths (d : Disk) (paths : List Text) : IO Disk :=
  paths.foldlM (fun d path => do
    match ← readEntry? (pathString path) with
    | some e => return d.place path e
    | none => return d) d

/-- The paths that arguments name: an argument, or what stands behind its equals sign. -/
def namedPaths (args : List Text) : List Text :=
  args.flatMap fun a => match Text.indexOfByte? a '=' with
    | some i => [a, a.drop (i + 1)]
    | none => [a]

/-- The files that are looked for above the working directory. -/
def policyPaths (d : Disk) : List Text :=
  let names := Path.parts d.cwd
  (List.range names.length).flatMap fun n =>
    Policy.fileNames.map fun f => Path.join [Disk.pathOf (names.take n), f]

/-- The files of settings that are looked for. -/
def settingsPaths (d : Disk) (e : Environment) : List Text :=
  (Config.searchDirs d e).flatMap fun dir =>
    SettingsFile.endings.map fun (ending, _) => Path.join [dir, "codespectre." ++ ending]

/-- The paths that the settings name. -/
def configuredPaths (d : Disk) (e : Environment) (args : List Text) : List Text :=
  let path : Text := match Tool.program.read args with
    | .ok (.run _ o _) => o.text "config"
    | _ => []
  match Config.load d e path with
  | .ok c => [c.storagePath d e, c.rulesFile, c.logFile].filter (!·.isEmpty)
  | .error _ => []

/-- The variables of some names that are set. -/
def readVariables (names : List Text) : IO (List (Text × Text)) :=
  names.filterMapM fun name => do
    match ← IO.getEnv (pathString name) with
    | some value => return some (name, Text.ofString value)
    | none => return none

/-- The variables that settings can come from. -/
def readEnvironment : IO Environment := do
  let assigned ← readVariables <|
    Text.ofString "XDG_CONFIG_HOME" :: Config.settingNames.map Environment.variableOf
  return { home := Text.ofString ((← IO.getEnv "HOME").getD ""), assigned }

/-- The environment with the variables that files of settings refer to. -/
def readReferred (e : Environment) (d : Disk) (paths : List Text) : IO Environment := do
  let names := paths.flatMap fun path => match d.contentOf path with
    | .ok source => (SettingsFile.namesIn source).filter (!·.isEmpty)
    | .error _ => []
  return { e with assigned := e.assigned ++ (← readVariables names.eraseDups) }

/-- The files around a command line, as far as it can reach them, and the variables that its settings
refer to. -/
def readDisk (e : Environment) (args : List Text) : IO (Disk × Environment) := do
  let cwd := Text.ofString (← IO.currentDir).toString
  let d : Disk := { cwd }
  let d ← readPaths d [cwd]
  let d ← readPaths d ((policyPaths d ++ settingsPaths d e).filter (!d.present ·))
  let named := (namedPaths args).filter (!·.isEmpty)
  let d ← readPaths d (named.filter (!d.present ·))
  let isSettings (path : Text) : Bool :=
    (SettingsFile.endings.lookup ((Path.extension path).drop 1)).isSome
  let e ← readReferred e d (settingsPaths d e ++ named.filter isSettings)
  return (← readPaths d ((configuredPaths d e args).filter (!d.present ·)), e)

def readClock : IO Timestamp := do
  let nanos := (← Std.Time.Timestamp.now).toNanosecondsSinceUnixEpoch.toInt
  return { seconds := nanos / 1000000000, nanos := (nanos % 1000000000).toNat }

/-! ## Writing -/

def applyChange : DiskChange → IO Unit
  | .makeDir path => IO.FS.createDirAll (pathString path)
  | .write path content => IO.FS.writeBinFile (pathString path) (toBytes content)
  | .remove path => do
    let place := (← IO.currentDir) / pathString path
    match (← place.symlinkMetadata).type with
    | .dir => IO.FS.removeDirAll place
    | _ => IO.FS.removeFile place

/-- Shows what a command left, and does to the files what it did to the disk. -/
def settle (d : Disk) (c : Tool.Completion) : IO Unit := do
  (Disk.changes d c.disk).forM applyChange
  let out ← IO.getStdout
  out.write (toBytes c.output)
  out.flush
  match c.failure? with
  | none | some (.policy _) => return
  | some f =>
    let err ← IO.getStderr
    err.write (toBytes ("[ERROR] " ++ f.message ++ "\n"))

/-! ## Running -/

/-- Nothing here can carry a request. -/
def noTransport : Transport := fun _ => .failure "no transport"

/-- What a command finds when it is started; reading the files counts as the time of the scan. -/
def readSession (e : Environment) (args : List Text) : IO (Tool.Session × Disk) := do
  let start ← IO.monoNanosNow
  let (d, e) ← readDisk e args
  let nanos := (← IO.monoNanosNow) - start
  let now ← readClock
  let terminal ← (← IO.getStdout).isTty
  return ({ environment := e, now, seconds := Float.ofNat nanos / 1e9, carry := noTransport, terminal },
    d)

/-- The event that a change of a disk causes. -/
def eventOf (old : Disk) : DiskChange → FileEvent
  | .makeDir path => ⟨path, [.create]⟩
  | .write path _ => ⟨path, [if old.present path then .write else .create]⟩
  | .remove path => ⟨path, [.remove]⟩

/-- A path of an event as the watch names it. -/
def underRoot (d : Disk) (root path : Text) : Text :=
  match Path.relative? (d.absolute root) path with
  | some rel => Path.join [root, rel]
  | none => path

/-- Goes on with a watch until it is stopped. The files are looked at once in a quiet period; when
nothing happened in one, the last timer has run down. -/
partial def keepWatching (e : Environment) (args : List Text) (seen : Disk) (l : Watch.Loop)
    (w : Tool.Watching) : IO Unit := do
  IO.sleep (w.quiet.nanos / Duration.millisecond).toNat.toUInt32
  let (s, d) ← readSession e args
  let events := (Disk.changes seen d).map fun change =>
    let event := eventOf seen change
    { event with path := underRoot d w.root event.path }
  let next := if events.isEmpty then l.quieted else l.told d events
  if next.runs == l.runs then keepWatching e args d next w
  else
    let c := Tool.goOn s d w
    settle d c
    keepWatching e args c.disk next (c.watching?.getD w)

end LiteralAudit.World

open LiteralAudit in
def main (args : List String) : IO UInt32 := do
  let args := args.map Text.ofString
  let e ← World.readEnvironment
  let (s, d) ← World.readSession e args
  let c := Tool.run s d args
  World.settle d c
  if let some w := c.watching? then World.keepWatching e args c.disk { watch := w.watch } w
  return c.exitCode.toNat.toUInt32
