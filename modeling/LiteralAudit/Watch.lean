import LiteralAudit.Disk.Basic
import LiteralAudit.Time.Duration

/-!
# Watching a directory

A watch registers the directories below its root and judges the events of files in them. `Watch.Loop`
is the life of a watch: a relevant event makes a timer, and stops the one before it; when the last one
runs down there is one run for all events since the run before.

A loop is not alone. Files change while a run goes on, and a timer may run down before it is stopped;
then what it has sent is still in its channel. `Loop.step?` says what each signal does and when it is
possible.
-/

namespace LiteralAudit

/-- What happened to a file. -/
inductive FileChange where
  | create
  | write
  | remove
  | rename
  | chmod
  deriving Repr, DecidableEq

structure FileEvent where
  path : Text
  changes : List FileChange
  deriving Repr, DecidableEq

structure Watch where
  root : Text
  /-- Which files, and which directories, matter; paths are relative to the root. -/
  isRelevant : Text → Bool → Bool
  /-- The directories that were registered, in the order in which they were. -/
  registered : List Text := []

namespace Watch

/-- How long it must be quiet before a run. -/
def defaultQuiet : Duration := ⟨300 * Duration.millisecond⟩

inductive Error where
  | noHandler
  | root (cause : DiskError)
  | notDirectory (path : Text)
  deriving Repr, DecidableEq

def Error.message : Error → Text
  | noHandler => "watch: OnChange is required"
  | root cause => "watch root: " ++ cause.message
  | notDirectory path => "watch root " ++ path ++ " is not a directory"

/-- Whether the watch descends into a directory. -/
def enters (w : Watch) (path : Text) : Bool :=
  path == w.root || ((Path.relative? w.root path).map (w.isRelevant · true)).getD true

mutual

/-- The directories to register at a path and below it, links not followed. -/
def directories (w : Watch) (path : Text) : Entry → List Text
  | .dir entries => if w.enters path then path :: directoriesIn w path entries else []
  | _ => []

def directoriesIn (w : Watch) (above : Text) : List (Text × Entry) → List Text
  | [] => []
  | (name, e) :: rest =>
    directories w (Path.join [above, name]) e ++ directoriesIn w above rest

end

/-- The watch with the directories at a path registered. -/
def register (w : Watch) (d : Disk) (path : Text) : Watch :=
  match d.lstat path with
  | .ok e => { w with registered := w.registered ++ w.directories path e }
  | .error _ => w

/-- A watch of a directory. -/
def start (d : Disk) (root : Text) (isRelevant : Text → Bool → Bool) : Except Error Watch :=
  match d.stat root with
  | .error e => .error (.root e)
  | .ok e =>
    if e.isDir then .ok (register { root, isRelevant } d root) else .error (.notDirectory root)

/-- Whether an event tells of nothing but permissions. -/
def FileEvent.isChmod (e : FileEvent) : Bool :=
  !e.changes.isEmpty && e.changes.all (· == .chmod)

/-- Whether an event matters, and the watch behind it. A new directory that matters is registered. -/
def handle (w : Watch) (d : Disk) (e : FileEvent) : Bool × Watch :=
  if FileEvent.isChmod e then (false, w)
  else match Path.relative? w.root e.path with
    | none => (false, w)
    | some rel =>
      let isDir := e.changes.contains .create && (d.stat e.path).toOption.any (·.isDir)
      let relevant := w.isRelevant rel isDir
      (relevant, if isDir && relevant then w.register d e.path else w)

/-! ## The loop -/

/-- What became of a timer. -/
inductive Timer where
  | running
  /-- It has run down, and what it sent is in its channel. -/
  | due
  /-- What it sent was received. -/
  | spent
  | stopped
  deriving Repr, DecidableEq

/-- A timer that is stopped. What it has sent before stays in its channel. -/
def Timer.stop : Timer → Timer
  | .running => .stopped
  | t => t

/-- What can happen next. Only one part of it is in the hands of the loop. -/
inductive Signal where
  /-- Something happens to a file; the loop is told of it when it listens. -/
  | occurred (e : FileEvent)
  /-- The loop is told of the oldest event, when the disk is like this. -/
  | told (disk : Disk)
  /-- A timer, known by its place among all that were made, runs down. -/
  | expired (timer : Nat)
  /-- The loop receives what the timer has sent, and calls for a run. -/
  | called
  /-- The run is over. -/
  | returned
  /-- The loop is told that watching a directory has failed. -/
  | fault
  /-- The loop is told that it is no longer wanted. -/
  | closed

structure Loop where
  watch : Watch
  /-- The events that the loop was not told of yet, the oldest first. -/
  waiting : List FileEvent := []
  /-- The timers that were made, the oldest first. -/
  timers : List Timer := []
  /-- The last timer that the loop made. -/
  timer? : Option Nat := none
  /-- The timer whose channel the loop listens to. -/
  fire? : Option Nat := none
  /-- A run was called for and is not over. -/
  running : Bool := false
  /-- How many runs were called for. -/
  runs : Nat := 0
  ended : Bool := false

namespace Loop

/-- Whether the loop waits for something to happen. -/
def listens (l : Loop) : Bool := !l.running && !l.ended

/-- The timers, with the last one that the loop made stopped. -/
def stopped (l : Loop) : List Timer :=
  match l.timer? with
  | some timer => l.timers.modify timer Timer.stop
  | none => l.timers

/-- The loop behind an event that it is told of. A relevant one makes a new timer instead of the last. -/
def hear (l : Loop) (d : Disk) (e : FileEvent) : Loop :=
  let (relevant, watch) := l.watch.handle d e
  if relevant then
    { l with
      watch
      timers := l.stopped ++ [.running]
      timer? := some l.timers.length
      fire? := some l.timers.length }
  else { l with watch }

/-- The loop behind a signal, if the signal is possible. -/
def step? (l : Loop) : Signal → Option Loop
  | .occurred e => some { l with waiting := l.waiting ++ [e] }
  | .told d =>
    match l.waiting with
    | e :: rest => if l.listens then some ({ l with waiting := rest }.hear d e) else none
    | [] => none
  | .expired timer =>
    if l.timers[timer]? = some .running then some { l with timers := l.timers.set timer .due }
    else none
  | .called =>
    match l.fire? with
    | some timer =>
      if l.listens && l.timers[timer]? == some .due then
        some { l with
          timers := l.timers.set timer .spent
          fire? := none
          running := true
          runs := l.runs + 1 }
      else none
    | none => none
  | .returned => if l.running then some { l with running := false } else none
  | .fault => if l.listens then some l else none
  | .closed => if l.listens then some { l with timers := l.stopped, ended := true } else none

/-- The loop behind signals that come one after another, if they are possible. -/
def run? (l : Loop) (ss : List Signal) : Option Loop := ss.foldlM step? l

/-- The loop behind events of which it is told at once. -/
def told (l : Loop) (d : Disk) (es : List FileEvent) : Loop :=
  (l.run? (es.flatMap fun e => [.occurred e, .told d])).getD l

/-- The loop behind a quiet time in which a run for what it was told before begins and ends. -/
def quieted (l : Loop) : Loop :=
  match l.fire? with
  | some timer => (l.run? [.expired timer, .called, .returned]).getD l
  | none => l

/-- The loop behind events that all come before any timer runs down, and the quiet behind them. -/
def burst (l : Loop) (d : Disk) (es : List FileEvent) : Loop := (l.told d es).quieted

end Loop

end Watch

end LiteralAudit
