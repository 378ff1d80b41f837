import LiteralAudit.Path

/-!
# Files and directories

A `Disk` is a tree of files, directories and symbolic links with a working directory. A path is walked
from the root or the working directory, following links; `Disk.locate` says where it ends, also when
the last part is missing.

A directory keeps its entries in the byte order of their names.

A change may also be refused for reasons that the tree does not show, such as a full device:
`Disk.refuses` says which changes are refused at present. A change that fails may have done a part of
what it should do; an `Attempt` holds the disk that it leaves.
-/

namespace LiteralAudit

inductive Entry where
  | file (content : Text)
  | dir (entries : List (Text × Entry))
  | link (target : Text)
  deriving Inhabited

/-- Why a path cannot be used as it should be. -/
inductive Refusal where
  | missing
  | notDirectory
  | isDirectory
  | fileExists
  | tooManyLinks
  | invalidPath
  | nameTooLong
  | notEmpty
  /-- The system has reasons of its own. -/
  | system (reason : Text)
  deriving Repr, DecidableEq

def Refusal.message : Refusal → Text
  | missing => "no such file or directory"
  | notDirectory => "not a directory"
  | isDirectory => "is a directory"
  | fileExists => "file exists"
  | tooManyLinks => "too many levels of symbolic links"
  | invalidPath => "invalid argument"
  | nameTooLong => "file name too long"
  | notEmpty => "directory not empty"
  | system reason => reason

/-- An operation on a path that was refused. -/
structure DiskError where
  operation : Text
  path : Text
  refusal : Refusal
  deriving Repr, DecidableEq

def DiskError.message (e : DiskError) : Text :=
  e.operation ++ " " ++ e.path ++ ": " ++ e.refusal.message

/-- The path does not lead to anything. -/
def DiskError.isMissing (e : DiskError) : Bool := e.refusal == .missing

namespace Entry

def isDir : Entry → Bool
  | dir _ => true
  | _ => false

def isFile : Entry → Bool
  | file _ => true
  | _ => false

/-- The entries of a directory; none for anything else. -/
def entries : Entry → List (Text × Entry)
  | dir es => es
  | _ => []

/-- The entry that names lead to. -/
def get? (e : Entry) : List Text → Option Entry
  | [] => some e
  | name :: rest => (e.entries.lookup name).bind (get? · rest)

/-- Entries with one set or added, in the byte order of the names. -/
def insert (name : Text) (e : Entry) : List (Text × Entry) → List (Text × Entry)
  | [] => [(name, e)]
  | (n, x) :: rest =>
    match Text.cmp name n with
    | .lt => (name, e) :: (n, x) :: rest
    | .eq => (n, e) :: rest
    | .gt => (n, x) :: insert name e rest

/-- The tree with an entry set where names lead to. Directories on the way must be there. -/
def set (e new : Entry) : List Text → Entry
  | [] => new
  | [name] => .dir (insert name new e.entries)
  | name :: next :: rest =>
    match e.entries.lookup name with
    | some child => .dir (insert name (set child new (next :: rest)) e.entries)
    | none => e

/-- The tree without what names lead to. -/
def erase (e : Entry) : List Text → Entry
  | [] => e
  | [name] => .dir (e.entries.filter (·.1 != name))
  | name :: next :: rest =>
    match e.entries.lookup name with
    | some child => .dir (insert name (erase child (next :: rest)) e.entries)
    | none => e

end Entry

/-- The steps of which changes consist. -/
inductive DiskStep where
  | makeDir
  | create
  | write
  | sync
  | close
  | chmod
  | rename
  deriving Repr, DecidableEq

structure Disk where
  root : Entry := .dir []
  /-- The working directory, as an absolute path. -/
  cwd : Text := "/"
  /-- Why a step of a change at a path is refused, if it is, whatever the tree holds. -/
  refuses : DiskStep → Text → Option Refusal := fun _ _ => none
  deriving Inhabited

/-- What came of a change: why it failed, if it did, and the disk that it left. -/
structure Attempt (ε : Type) where
  fault? : Option ε
  disk : Disk

/-- The disk after a change that succeeded. -/
def Attempt.result {ε : Type} (a : Attempt ε) : Except ε Disk :=
  match a.fault? with
  | none => .ok a.disk
  | some e => .error e

namespace Disk

/-- Where a path ends: the names from the root, and what is there. -/
structure Place where
  names : List Text
  entry? : Option Entry

/-- How long a name may be. -/
def nameLimit : Nat := 255

/-- How many links a path may lead through. -/
def linkLimit : Nat := 40

/-- Walks the parts of a path from a directory. `follow` says whether a link at the end is followed,
and `links` how many may still be. -/
def walk (root : Entry) (follow : Bool) (links : Nat) (here : List Text) (todo : List Text) :
    Except Refusal Place :=
  match todo with
  | [] => .ok ⟨here, root.get? here⟩
  | part :: rest =>
    match root.get? here with
    | some (.dir entries) =>
      if part == "." then walk root follow links here rest
      else if part == ".." then walk root follow links here.dropLast rest
      else if part.length > nameLimit then .error .nameTooLong
      else match entries.lookup part with
        | none => if rest.isEmpty then .ok ⟨here ++ [part], none⟩ else .error .missing
        | some (.link target) =>
          if rest.isEmpty && !follow then .ok ⟨here ++ [part], some (.link target)⟩
          else match links with
            | 0 => .error .tooManyLinks
            | links + 1 =>
              walk root follow links (if Path.isAbsolute target then [] else here)
                (Path.parts target ++ rest)
        | some (.file content) =>
          if rest.isEmpty then .ok ⟨here ++ [part], some (.file content)⟩
          else .error .notDirectory
        | some (.dir _) => walk root follow links (here ++ [part]) rest
    | some _ => .error .notDirectory
    | none => .error .missing
termination_by (links, todo.length)

/-- Where a path ends. A slash at its end asks for a directory. -/
def locate (d : Disk) (path : Text) (follow : Bool) : Except Refusal Place :=
  if path.isEmpty then .error .missing
  else if path.contains 0 then .error .invalidPath
  else
    let asDir := path.getLast? == some ('/' : UInt8)
    let start := if Path.isAbsolute path then [] else Path.parts d.cwd
    match walk d.root (follow || asDir) linkLimit [] (start ++ Path.parts path) with
    | .ok ⟨names, some e⟩ =>
      if asDir && !e.isDir then .error .notDirectory else .ok ⟨names, some e⟩
    | r => r

/-- An absolute path without dots. -/
def absolute (d : Disk) (path : Text) : Text :=
  if Path.isAbsolute path then Path.clean path else Path.join [d.cwd, path]

/-- The names from the root as a path. -/
def pathOf (names : List Text) : Text := "/" ++ Text.join "/" names

/-! ## Looking -/

/-- What a path leads to. -/
def lookAt (d : Disk) (operation path : Text) (follow : Bool) : Except DiskError Entry :=
  match d.locate path follow with
  | .ok ⟨_, some e⟩ => .ok e
  | .ok ⟨_, none⟩ => .error ⟨operation, path, .missing⟩
  | .error r => .error ⟨operation, path, r⟩

/-- What a path leads to, links followed. -/
def stat (d : Disk) (path : Text) : Except DiskError Entry := d.lookAt "stat" path true

/-- What a path leads to, a link at its end not followed. -/
def lstat (d : Disk) (path : Text) : Except DiskError Entry := d.lookAt "lstat" path false

def present (d : Disk) (path : Text) : Bool := (d.stat path).isOk

/-- The content of a file. -/
def contentOf (d : Disk) (path : Text) : Except DiskError Text :=
  match d.lookAt "open" path true with
  | .ok (.file content) => .ok content
  | .ok _ => .error ⟨"read", path, .isDirectory⟩
  | .error e => .error e

/-- The entries of a directory. -/
def readDir (d : Disk) (path : Text) : Except DiskError (List (Text × Entry)) :=
  match d.lookAt "open" path true with
  | .ok (.dir entries) => .ok entries
  | .ok _ => .error ⟨"readdirent", path, .notDirectory⟩
  | .error e => .error e

/-! ## Changing -/

/-- The disk with a new directory. -/
def mkdir (d : Disk) (path : Text) : Except DiskError Disk :=
  match d.locate path false with
  | .error r => .error ⟨"mkdir", path, r⟩
  | .ok ⟨_, some _⟩ => .error ⟨"mkdir", path, .fileExists⟩
  | .ok ⟨names, none⟩ =>
    match d.refuses .makeDir path with
    | some r => .error ⟨"mkdir", path, r⟩
    | none => .ok { d with root := d.root.set (.dir []) names }

/-- A path without its last part, as it is written; empty when it has one part only. -/
def writtenParent (path : Text) : Text :=
  let trimmed := Text.trimEnd (· == '/') path
  ((trimmed.reverse.dropWhile (fun (b : UInt8) => b != '/')).drop 1).reverse

/-- Auxiliary to `makeDirs`: `depth` bounds the number of parts. -/
def makeDirsFrom (d : Disk) (path : Text) : Nat → Attempt DiskError
  | 0 => ⟨some ⟨"mkdir", path, .missing⟩, d⟩
  | depth + 1 =>
    match d.stat path with
    | .ok e => ⟨if e.isDir then none else some ⟨"mkdir", path, .notDirectory⟩, d⟩
    | .error _ =>
      let parent := writtenParent path
      let above : Attempt DiskError := if parent.isEmpty then ⟨none, d⟩ else makeDirsFrom d parent depth
      match above.fault? with
      | some e => ⟨some e, above.disk⟩
      | none =>
        match above.disk.mkdir path with
        | .ok d => ⟨none, d⟩
        | .error e =>
          match above.disk.lstat path with
          | .ok (.dir _) => ⟨none, above.disk⟩
          | _ => ⟨some e, above.disk⟩

/-- Makes a directory and all directories above it. -/
def makeDirs (d : Disk) (path : Text) : Attempt DiskError := makeDirsFrom d path (path.length + 1)

/-- The disk with a directory and all directories above it. -/
def mkdirAll (d : Disk) (path : Text) : Except DiskError Disk := (d.makeDirs path).result

/-- The disk with a file written, in a directory that must be there. -/
def writeFile (d : Disk) (path content : Text) : Except DiskError Disk :=
  match d.locate path true with
  | .error r => .error ⟨"open", path, r⟩
  | .ok ⟨names, e?⟩ =>
    let isDir := match e? with
      | some e => !e.isFile
      | none => path.getLast? == some ('/' : UInt8)
    if isDir then .error ⟨"open", path, .isDirectory⟩
    else match d.refuses .create path with
      | some r => .error ⟨"open", path, r⟩
      | none => .ok { d with root := d.root.set (.file content) names }

/-- The disk with everything at a path removed; a link is removed itself. -/
def removeAll (d : Disk) (path : Text) : Disk :=
  match d.locate path false with
  | .ok ⟨names, some _⟩ => { d with root := d.root.erase names }
  | _ => d

/-- The disk with another working directory. -/
def changeDir (d : Disk) (path : Text) : Disk :=
  match d.locate path true with
  | .ok ⟨names, some (.dir _)⟩ => { d with cwd := pathOf names }
  | _ => d

/-- The disk with an entry laid down, and the directories that it needs. -/
def place (d : Disk) (path : Text) (e : Entry) : Disk :=
  let d := match d.mkdirAll (Path.parent path) with
    | .ok d => d
    | .error _ => d
  match d.locate path false with
  | .ok ⟨names, none⟩ => { d with root := d.root.set e names }
  | .ok ⟨names, some old⟩ =>
    if old.isDir && e.isDir then d else { d with root := d.root.set e names }
  | .error _ => d

/-! ## Replacing a file in one step -/

/-- Why a file was not replaced. -/
inductive ReplaceError where
  | disk (e : DiskError)
  /-- The new file could not take the place of what is there. -/
  | rename (temporary path : Text) (refusal : Refusal)
  deriving Repr, DecidableEq

def ReplaceError.message : ReplaceError → Text
  | disk e => e.message
  | rename temporary path refusal =>
    "rename " ++ temporary ++ " " ++ path ++ ": " ++ refusal.message

/-- The name under which a file is written before it takes its place. The part that varies is shown as
`<n>`. -/
def temporaryName (path : Text) : Text :=
  let dir := Path.parent path
  let sep : Text := if dir.getLast? == some ('/' : UInt8) then [] else "/"
  dir ++ sep ++ Path.base path ++ ".tmp.<n>"

/-- The steps by which the new content is written under another name, with what each is called. -/
def stagingSteps : List (DiskStep × Text) :=
  [(.create, "open"), (.write, "write"), (.sync, "sync"), (.close, "close"), (.chmod, "chmod")]

/-- The first of these steps that is refused. A path of slashes only has no name that another one could
begin with. -/
def stagingFault? (d : Disk) (path : Text) : Option ReplaceError :=
  let temporary := temporaryName path
  if (Path.base path).contains '/' then
    some (.disk ⟨"createtemp", Path.base path ++ ".tmp.*", .system "pattern contains path separator"⟩)
  else if (Path.base path).length + 5 > nameLimit then some (.disk ⟨"open", temporary, .nameTooLong⟩)
  else stagingSteps.findSome? fun (step, operation) =>
    (d.refuses step path).map fun r => .disk ⟨operation, temporary, r⟩

/-- Puts the new content, which was written under another name, in the place of a file. A slash at the
end of the path asks for a directory, which a file cannot be. -/
def moveInto (d : Disk) (path content : Text) : Attempt ReplaceError :=
  let temporary := temporaryName path
  match d.locate path false with
  | .error r => ⟨some (.rename temporary path r), d⟩
  | .ok ⟨_, some (.dir _)⟩ => ⟨some (.rename temporary path .fileExists), d⟩
  | .ok ⟨names, _⟩ =>
    if path.getLast? == some ('/' : UInt8) then ⟨some (.rename temporary path .notDirectory), d⟩
    else match d.refuses .rename path with
      | some r => ⟨some (.rename temporary path r), d⟩
      | none => ⟨none, { d with root := d.root.set (.file content) names }⟩

/-- Replaces a file: the new content is written under another name in the same directory, which then
takes the place of the file, so that a reader sees the old or the new content. The other name is gone
after a failure, too; a directory that was made for the file stays. -/
def replace (d : Disk) (path content : Text) : Attempt ReplaceError :=
  let made := d.makeDirs (Path.parent path)
  match made.fault? with
  | some e => ⟨some (.disk e), made.disk⟩
  | none =>
    match made.disk.stagingFault? path with
    | some e => ⟨some e, made.disk⟩
    | none => made.disk.moveInto path content

/-- The disk with a file replaced. -/
def replaceFile (d : Disk) (path content : Text) : Except ReplaceError Disk :=
  (d.replace path content).result

end Disk

/-! ## Listing -/

mutual

/-- The paths below a directory, directories with a slash at the end and before what they hold. -/
def Entry.tree (above : Text) : Entry → List Text
  | .dir entries => Entry.treeOf above entries
  | _ => []

def Entry.treeOf (above : Text) : List (Text × Entry) → List Text
  | [] => []
  | (name, e) :: rest =>
    let path := above ++ name
    (if e.isDir then (path ++ "/") :: Entry.tree (path ++ "/") e else [path]) ++
      Entry.treeOf above rest

end

/-!
## From one disk to another

`Disk.changes` says what has to be done to a disk so that it holds what another one holds. Links are
left as they are: nothing here makes one, and one that gives way to a file is removed.
-/

/-- One thing to do to a disk. -/
inductive DiskChange where
  | makeDir (path : Text)
  | write (path content : Text)
  | remove (path : Text)
  deriving Repr, DecidableEq

namespace Entry

/-- What must go before a directory can hold what it should. -/
def leftovers (path : Text) (old new : List (Text × Entry)) : List DiskChange :=
  (old.filter fun (name, _) => (new.lookup name).isNone).map fun (name, _) =>
    .remove (path ++ "/" ++ name)

mutual

/-- The changes that make an entry of what is at a path. A directory comes before what it holds. -/
def changes (path : Text) (old? : Option Entry) : Entry → List DiskChange
  | .file content =>
    match old? with
    | some (.file before) => if before == content then [] else [.write path content]
    | some _ => [.remove path, .write path content]
    | none => [.write path content]
  | .link _ => []
  | .dir entries =>
    match old? with
    | some (.dir old) => leftovers path old entries ++ changesIn path old entries
    | some _ => .remove path :: .makeDir path :: changesIn path [] entries
    | none => .makeDir path :: changesIn path [] entries

def changesIn (above : Text) (old : List (Text × Entry)) : List (Text × Entry) → List DiskChange
  | [] => []
  | (name, e) :: rest =>
    changes (above ++ "/" ++ name) (old.lookup name) e ++ changesIn above old rest

end

end Entry

/-- What has to be done to a disk so that it holds what another one holds. -/
def Disk.changes (old new : Disk) : List DiskChange := Entry.changes [] (some old.root) new.root

end LiteralAudit
