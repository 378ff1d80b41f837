import LiteralAudit.Disk.Basic

/-!
# Replacing a file step by step

`Disk.replace` says what comes of replacing a file. Here the steps are taken one after the other, as the
system sees them: a new file is created beside the old one, under a name that ends in a number which is
drawn until the name is free; the content is written to it; and it is moved to the place of the old one.
Whichever step fails, the new file is removed.
-/

namespace LiteralAudit.Disk

/-! ## Files by themselves -/

/-- The disk with an empty file where there was nothing. -/
def createNew (d : Disk) (path : Text) : Except Refusal Disk :=
  match d.locate path false with
  | .error r => .error r
  | .ok ⟨_, some _⟩ => .error .fileExists
  | .ok ⟨names, none⟩ =>
    if path.getLast? == some ('/' : UInt8) then .error .isDirectory
    else .ok { d with root := d.root.set (.file []) names }

/-- The disk with other content in a file that is there. -/
def fill (d : Disk) (path content : Text) : Disk :=
  match d.locate path false with
  | .ok ⟨names, some (.file _)⟩ => { d with root := d.root.set (.file content) names }
  | _ => d

/-- Where a file can be put for a path. What is there gives way to it, unless it is a directory; a slash at
the end of the path asks for a directory. -/
def placeFor (d : Disk) (path : Text) : Except Refusal (List Text) :=
  match d.locate path false with
  | .error r => .error r
  | .ok ⟨_, some (.dir _)⟩ => .error .fileExists
  | .ok ⟨names, _⟩ =>
    if path.getLast? == some ('/' : UInt8) then .error .notDirectory
    else match d.refuses .rename path with
      | some r => .error r
      | none => .ok names

/-- The disk with a file moved to another place. -/
def moveFile (d : Disk) (source target : Text) : Except ReplaceError Disk :=
  match d.locate source false, d.placeFor target with
  | .error r, _ => .error (.rename source target r)
  | .ok ⟨_, none⟩, _ => .error (.rename source target .missing)
  | .ok ⟨_, some _⟩, .error r => .error (.rename source target r)
  | .ok ⟨old, some e⟩, .ok names => .ok { d with root := (d.root.erase old).set e names }

/-! ## The steps of a replacement -/

/-- What a replacement leaves to chance. -/
structure Chance where
  /-- The numbers that are drawn, one after the other, for the name of the new file. -/
  draws : List Nat
  /-- How much of the content is written when it is not written completely. -/
  part : Nat := 0

/-- The directory of a path with a slash behind it. -/
def beside (path : Text) : Text :=
  let dir := Path.parent path
  if dir.getLast? == some ('/' : UInt8) then dir else dir ++ "/"

/-- The name of the new file with a number. -/
def numberedName (path : Text) (n : Nat) : Text := Path.base path ++ ".tmp." ++ Text.ofNat n

/-- The path of the new file with a number. -/
def numbered (path : Text) (n : Nat) : Text := beside path ++ numberedName path n

/-- Auxiliary to `createTemporary`: takes the first number whose name is free. -/
def createNumbered (d : Disk) (path : Text) : List Nat → Except ReplaceError (Text × Disk)
  | [] => .error (.disk ⟨"createtemp", beside path ++ Path.base path ++ ".tmp.*", .fileExists⟩)
  | n :: draws =>
    match d.createNew (numbered path n) with
    | .error .fileExists => createNumbered d path draws
    | .error r => .error (.disk ⟨"open", numbered path n, r⟩)
    | .ok created =>
      match d.refuses .create path with
      | some r => .error (.disk ⟨"open", numbered path n, r⟩)
      | none => .ok (numbered path n, created)

/-- Creates the new file, and says under which path. A path of slashes only has no name that could go on
with a number. -/
def createTemporary (d : Disk) (path : Text) (draws : List Nat) : Except ReplaceError (Text × Disk) :=
  if (Path.base path).contains '/' then
    let pattern := Path.base path ++ ".tmp.*"
    .error (.disk ⟨"createtemp", pattern, .system "pattern contains path separator"⟩)
  else createNumbered d path draws

/-- The steps between writing the content and moving the file. -/
def settlingSteps : List (DiskStep × Text) := [(.sync, "sync"), (.close, "close"), (.chmod, "chmod")]

/-- Writes the new file and settles it, all by the path of the file that it is for. -/
def writeTemporary (d : Disk) (temporary path content : Text) (part : Nat) : Attempt ReplaceError :=
  match d.refuses .write path with
  | some r => ⟨some (.disk ⟨"write", temporary, r⟩), d.fill temporary (content.take part)⟩
  | none =>
    ⟨settlingSteps.findSome? fun (step, operation) =>
      (d.refuses step path).map fun r => .disk ⟨operation, temporary, r⟩, d.fill temporary content⟩

/-- Replaces a file in steps. -/
def replaceInSteps (d : Disk) (c : Chance) (path content : Text) : Attempt ReplaceError :=
  let made := d.makeDirs (Path.parent path)
  match made.fault? with
  | some e => ⟨some (.disk e), made.disk⟩
  | none =>
    match made.disk.createTemporary path c.draws with
    | .error e => ⟨some e, made.disk⟩
    | .ok (temporary, created) =>
      let written := created.writeTemporary temporary path content c.part
      match written.fault? with
      | some e => ⟨some e, written.disk.removeAll temporary⟩
      | none =>
        match written.disk.moveFile temporary path with
        | .error e => ⟨some e, written.disk.removeAll temporary⟩
        | .ok moved => ⟨none, moved⟩

end LiteralAudit.Disk
