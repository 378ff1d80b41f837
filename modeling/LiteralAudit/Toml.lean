import LiteralAudit.Toml.Value

/-!
# TOML documents

A document is a tree of tables. A table is defined once: by its header, or by the dotted keys of the
table above it; the tables that a header only passes through can still be defined later. A header in
double brackets adds a table to a list of tables.

`Toml.read?` gives the entries of the document.
-/

namespace LiteralAudit.Toml

/-- How a table came to be. -/
inductive Origin where
  /-- A header led through it. -/
  | passed
  /-- Dotted keys of the current table made it. -/
  | dotted
  /-- It was defined and cannot be defined again. -/
  | defined
  deriving DecidableEq

inductive Node where
  | value (v : Setting)
  | table (origin : Origin) (entries : List (Text × Node))
  /-- The tables of a list, the last one first. -/
  | tables (items : List (List (Text × Node)))
  deriving Inhabited

namespace Node

def put (name : Text) (n : Node) (es : List (Text × Node)) : List (Text × Node) :=
  if (es.lookup name).isSome then es.map fun e => if e.1 == name then (name, n) else e
  else es ++ [(name, n)]

/-- The entries with the table at a path changed; tables on the way are passed through. -/
def update? (f : List (Text × Node) → Option (List (Text × Node))) :
    List Text → List (Text × Node) → Option (List (Text × Node))
  | [], es => f es
  | name :: rest, es =>
    match es.lookup name with
    | none => do return put name (.table .passed (← update? f rest [])) es
    | some (.table origin inner) => do return put name (.table origin (← update? f rest inner)) es
    | some (.tables (last :: before)) => do
      return put name (.tables ((← update? f rest last) :: before)) es
    | some _ => none

/-- A header defines its last name as a table. -/
def define? (name : Text) (es : List (Text × Node)) : Option (List (Text × Node)) :=
  match es.lookup name with
  | none => some (put name (.table .defined []) es)
  | some (.table .defined _) => none
  | some (.table _ inner) => some (put name (.table .defined inner) es)
  | some _ => none

/-- A header in double brackets adds a table to the list of its last name. -/
def extend? (name : Text) (es : List (Text × Node)) : Option (List (Text × Node)) :=
  match es.lookup name with
  | none => some (put name (.tables [[]]) es)
  | some (.tables items) => some (put name (.tables ([] :: items)) es)
  | some _ => none

/-- A key sets a value that is not there yet; its dots make tables. -/
def assign? (v : Setting) : List Text → List (Text × Node) → Option (List (Text × Node))
  | [], _ => none
  | [name], es => if (es.lookup name).isSome then none else some (put name (.value v) es)
  | name :: next :: rest, es =>
    match es.lookup name with
    | none => do return put name (.table .dotted (← assign? v (next :: rest) [])) es
    | some (.table .defined _) => none
    | some (.table origin inner) => do
      return put name (.table origin (← assign? v (next :: rest) inner)) es
    | some _ => none

mutual

/-- Tables that dotted keys made are defined once the next header comes. -/
def settle : Node → Node
  | value v => value v
  | table origin es => table (if origin == .dotted then .defined else origin) (settleEntries es)
  | tables items => tables (settleAll items)

def settleEntries : List (Text × Node) → List (Text × Node)
  | [] => []
  | (name, n) :: rest => (name, settle n) :: settleEntries rest

def settleAll : List (List (Text × Node)) → List (List (Text × Node))
  | [] => []
  | es :: rest => settleEntries es :: settleAll rest

end

mutual

def toSetting : Node → Setting
  | value v => v
  | table _ es => .table (toEntries es)
  | tables items => .list (toTables items).reverse

def toEntries : List (Text × Node) → List (Text × Setting)
  | [] => []
  | (name, n) :: rest => (name, toSetting n) :: toEntries rest

def toTables : List (List (Text × Node)) → List Setting
  | [] => []
  | es :: rest => .table (toEntries es) :: toTables rest

end

end Node

/-- What has been read: the tree and the path of the current table. -/
structure Reading where
  entries : List (Text × Node) := []
  path : List Text := []

/-- A header changes the last name of its path and makes it the current table. -/
def header? (change : Text → List (Text × Node) → Option (List (Text × Node))) (path : List Text)
    (r : Reading) : Option Reading := do
  let last ← path.getLast?
  return { entries := ← Node.update? (change last) path.dropLast (Node.settleEntries r.entries), path }

/-- One line: a header, a key with its value, or nothing. -/
def line? (s : List Char) (r : Reading) : Option (Reading × List Char) := do
  match skipBlanks s with
  | '[' :: '[' :: rest =>
    let (path, rest) ← key? (rest.length + 1) (skipBlanks rest)
    let (_, rest) ← char? ']' (skipBlanks rest)
    let (_, rest) ← char? ']' rest
    return (← header? Node.extend? path r, ← endLine? rest)
  | '[' :: rest =>
    let (path, rest) ← key? (rest.length + 1) (skipBlanks rest)
    let (_, rest) ← char? ']' (skipBlanks rest)
    return (← header? Node.define? path r, ← endLine? rest)
  | [] => return (r, [])
  | s@(c :: _) =>
    if c == '#' || c == '\n' || c == '\r' then return (r, ← endLine? s)
    else
      let (path, rest) ← key? (s.length + 1) s
      let (_, rest) ← char? '=' (skipBlanks rest)
      let (v, rest) ← value? (rest.length + 1) (skipBlanks rest)
      let entries ← Node.update? (Node.assign? v path) r.path r.entries
      return ({ r with entries }, ← endLine? rest)

def lines? : Nat → List Char → Reading → Option Reading
  | 0, _, _ => none
  | fuel + 1, s, r =>
    if s.isEmpty then some r
    else match line? s r with
      | some (r, rest) => lines? fuel rest r
      | none => none

/-- The entries of a document. -/
def read? (source : Text) : Option (List (Text × Setting)) :=
  if !source.isUtf8 then none
  else
    let s := source.chars
    (lines? (s.length + 1) s {}).map fun r => Node.toEntries r.entries

end LiteralAudit.Toml
