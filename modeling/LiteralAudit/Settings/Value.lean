import LiteralAudit.Json.Basic
import LiteralAudit.Number.Decimal
import LiteralAudit.Time.Duration
import LiteralAudit.Unicode.Case
import LiteralAudit.Yaml.Decode

/-!
# Values of settings

What a file or a variable gives for a setting. A setting is read as the type that it has, and what is
written differently is converted where that makes sense: a number may stand in a text, a single value
for a list of one, and a text with commas for a list.

Readers return `none` when a value cannot be converted.
-/

namespace LiteralAudit

inductive Setting where
  | null
  | bool (b : Bool)
  | int (i : Int)
  | float (x : Float)
  | text (t : Text)
  /-- A date or a time, which no setting takes. -/
  | time
  | list (items : List Setting)
  | table (entries : List (Text × Setting))
  deriving Inhabited

namespace Setting

def isNull : Setting → Bool
  | null => true
  | _ => false

/-- The value of a name in small letters, which may be written in others. The last of several counts,
and one that is not in small letters counts before one that is. -/
def find? (entries : List (Text × Setting)) (name : Text) : Option Setting :=
  let named := entries.reverse.filter fun e => e.1.toLower == name
  ((named.find? (·.1 != name)).or named.head?).map (·.2)

/-- The value of a name, if it is given and not null. -/
def lookup? (entries : List (Text × Setting)) (name : Text) : Option Setting :=
  (find? entries name).filter (!·.isNull)

/-- The entries with the value of a name set. -/
def put (name : Text) (v : Setting) (entries : List (Text × Setting)) : List (Text × Setting) :=
  if (entries.lookup name).isSome then
    entries.map fun e => if e.1 == name then (name, v) else e
  else entries ++ [(name, v)]

/-- The entries with a value set below a path of names. What stands in the way gives place to a
table. -/
def putPath (v : Setting) : List Text → List (Text × Setting) → List (Text × Setting)
  | [], entries => entries
  | [name], entries => put name v entries
  | name :: next :: rest, entries =>
    let inner := match entries.lookup name with
      | some (.table inner) => inner
      | _ => []
    put name (.table (putPath v (next :: rest) inner)) entries

/-! ## Conversions -/

def text? : Setting → Option Text
  | text t => some t
  | bool b => some (if b then "1" else "0")
  | int i => some (Text.ofInt i)
  | float x => some (Number.plainShortest x)
  | _ => none

def int? : Setting → Option Int
  | int i => some (Number.wrap64 i)
  | float x => some (Number.truncate64 x)
  | bool b => some (if b then 1 else 0)
  | text t => if t.isEmpty then some 0 else Number.readLiteral? t
  | _ => none

def float? : Setting → Option Float
  | int i => some (Float.ofInt i)
  | float x => some x
  | bool b => some (if b then 1 else 0)
  | text t => if t.isEmpty then some 0 else Number.readReal? t
  | _ => none

/-- The truth value that a text spells. -/
def readBool? (t : Text) : Option Bool :=
  if ["1", "t", "T", "true", "TRUE", "True"].any (fun w => Text.ofString w == t) then some true
  else if ["0", "f", "F", "false", "FALSE", "False"].any (fun w => Text.ofString w == t) then
    some false
  else none

def bool? : Setting → Option Bool
  | bool b => some b
  | int i => some (i != 0)
  | float x => some (x != 0)
  | text t => if t.isEmpty then some false else readBool? t
  | _ => none

/-- A duration: a text with units, or a number of nanoseconds. -/
def duration? : Setting → Option Duration
  | text t => (Duration.read t).toOption
  | s => s.int?.map Duration.mk

/-- The items of a list; a null item is read as `missing`. -/
def list? (item? : Setting → Option α) (missing : α) : Setting → Option (List α)
  | text t => if t.isEmpty then some [] else (Text.splitOn ',' t).mapM fun part => item? (text part)
  | list items => items.mapM fun s => if s.isNull then some missing else item? s
  | table [] => some []
  | s => (item? s).map fun a => [a]

/-! ## Where values come from -/

mutual

/-- The value that JSON writes; every number is a double. -/
def ofJson? : Json → Option Setting
  | .null => some null
  | .bool b => some (bool b)
  | .number n => match Number.readReal? n with
    | some x => some (float x)
    | none => none
  | .string t => some (text t)
  | .array items => (ofJsonItems? items).map list
  | .object fields => (ofJsonFields? fields).map table

def ofJsonItems? : List Json → Option (List Setting)
  | [] => some []
  | j :: rest => do return (← ofJson? j) :: (← ofJsonItems? rest)

def ofJsonFields? : List (Text × Json) → Option (List (Text × Setting))
  | [] => some []
  | (name, j) :: rest => do return (name, ← ofJson? j) :: (← ofJsonFields? rest)

end

/-- The value that a scalar of YAML means. -/
def ofScalar : Yaml.Scalar → Setting
  | .null => null
  | .bool b => bool b
  | .int i => int i
  | .float x => float x
  | .timestamp => time
  | .merge => text "<<"
  | .text t => text t

/-- The value that a node of YAML means; `depth` bounds how deep it nests. -/
def ofNode? (depth : Nat) (n : Yaml.Node) : Option Setting :=
  match depth with
  | 0 => none
  | depth + 1 =>
    match n with
    | .aliased _ none => none
    | .aliased _ (some n) => ofNode? depth n
    | .scalar tag style t => (Yaml.resolve? tag style t).map ofScalar
    | .sequence _ items => (items.mapM (ofNode? depth)).map list
    | .mapping .. => do
      let entries ← n.entries? Yaml.Node.mergeDepth
      let values ← entries.mapM fun (name, v) => do return (name, ← ofNode? depth v)
      return table values

/-- How deep the nodes of YAML may nest. -/
def nodeDepth : Nat := 10000

end Setting

end LiteralAudit

/-!
## Variables of the environment

What a run knows of its surroundings: the home directory and the variables that are set. A setting can
be given by a variable that is named for it.
-/

namespace LiteralAudit

/-- The surroundings of a run: the home directory and the variables that are set. -/
structure Environment where
  home : Text := []
  assigned : List (Text × Text) := []

namespace Environment

/-- The value of a variable; an empty one counts as not set. -/
def get? (e : Environment) (name : Text) : Option Text :=
  (e.assigned.lookup name).filter (!·.isEmpty)

/-- The value of a variable as it was set, the home directory being one of the variables. -/
def value? (e : Environment) (name : Text) : Option Text :=
  (e.assigned.lookup name).or (if name == Text.ofString "HOME" then some e.home else none)

/-- The variable of a setting. -/
def variableOf (setting : Text) : Text :=
  Text.replaceAll "." "_" ("CODESPECTRE_" ++ setting).toUpper

/-- The value that a variable gives a setting. -/
def setting? (e : Environment) (setting : Text) : Option Setting :=
  (e.get? (variableOf setting)).map .text

end Environment

end LiteralAudit
