import LiteralAudit.Disk.Basic
import LiteralAudit.Text.Utf8

/-!
# Logs

What a run tells about itself, apart from its result: lines with columns for people on the console, and
JSON lines in a file. The level of the console follows what was asked for; the file keeps everything
from `info` on.
-/

namespace LiteralAudit.Log

inductive Level where
  | debug
  | info
  | warn
  | error
  deriving Repr, DecidableEq

namespace Level

def rank : Level → Nat
  | debug => 0
  | info => 1
  | warn => 2
  | error => 3

def name : Level → Text
  | debug => "debug"
  | info => "info"
  | warn => "warn"
  | error => "error"

def capitals : Level → Text
  | debug => "DEBUG"
  | info => "INFO"
  | warn => "WARN"
  | error => "ERROR"

/-- Whether an entry of this level is kept where `least` is the least level. -/
def reaches (l least : Level) : Bool := least.rank ≤ l.rank

end Level

structure LogEntry where
  level : Level
  message : Text
  fields : List (Text × Text) := []
  deriving Repr, DecidableEq

/-- What is logged where. -/
structure Sink where
  verbose : Bool := false
  debug : Bool := false
  /-- The log file; none when empty. -/
  file : Text := []
  deriving Repr, DecidableEq

/-! ## Lines -/

/-- One rune inside a string of a log; `b` is its first byte. -/
def quoteRune (b : UInt8) (r : Rune) : Text :=
  if r.isStray then "\\ufffd"
  else if b ≥ 0x80 then Text.ofChar r.char
  else if b == '"' || b == '\\' then ['\\', b]
  else if b == '\n' then "\\n"
  else if b == '\r' then "\\r"
  else if b == '\t' then "\\t"
  else if b < 0x20 then "\\u00" ++ Text.hex 2 b.toNat
  else [b]

/-- Auxiliary to `quoted`: the first `skip` bytes belong to a rune already written. -/
def quoteFrom : Nat → Text → Text
  | _, [] => []
  | skip + 1, _ :: rest => quoteFrom skip rest
  | 0, b :: rest =>
    let r := Rune.first b rest
    quoteRune b r ++ quoteFrom (r.width - 1) rest

def quoted (t : Text) : Text := "\"" ++ quoteFrom 0 t ++ "\""

/-- Fields as the members of a JSON object; a blank follows each comma and colon of the console. -/
def members (blank : Text) (fields : List (Text × Text)) : Text :=
  Text.join ("," ++ blank) (fields.map fun (k, v) => (quoted k ++ ":" ++ blank ++ quoted v : Text))

/-- An entry on the console, without the time: its level, its message and its fields. -/
def consoleLine (e : LogEntry) : Text :=
  e.level.capitals ++ "\t" ++ e.message ++
    (if e.fields.isEmpty then [] else "\t\x7b" ++ members " " e.fields ++ "\x7d" : Text) ++ "\n"

/-- An entry in the file, without the time. -/
def fileLine (e : LogEntry) : Text :=
  "\x7b" ++ members [] (("level", e.level.name) :: ("msg", e.message) :: e.fields) ++ "\x7d\n"

/-! ## Where entries go -/

namespace Sink

def consoleLevel (s : Sink) : Level :=
  if s.debug then .debug else if s.verbose then .info else .warn

def fileLevel (s : Sink) : Level := if s.debug then .debug else .info

/-- What the console shows. -/
def console (s : Sink) (es : List LogEntry) : Text :=
  (es.filter (·.level.reaches s.consoleLevel)).flatMap consoleLine

/-- The disk with the directory of the log file. -/
def prepare (s : Sink) (d : Disk) : Attempt DiskError :=
  if s.file.isEmpty then ⟨none, d⟩ else d.makeDirs (Path.parent s.file)

/-- The disk with the entries at the end of the log file. The file is there once it has an entry. -/
def append (s : Sink) (d : Disk) (es : List LogEntry) : Disk :=
  let lines := (es.filter (·.level.reaches s.fileLevel)).flatMap fileLine
  if s.file.isEmpty || lines.isEmpty then d
  else
    let before := (d.contentOf s.file).toOption.getD []
    match d.writeFile s.file (before ++ lines) with
    | .ok d => d
    | .error _ => d

end Sink

end LiteralAudit.Log
