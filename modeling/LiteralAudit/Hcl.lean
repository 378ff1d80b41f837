import LiteralAudit.Hcl.Node
import LiteralAudit.Settings.Value

/-!
# Documents of HCL

The values that a document gives its keys. An object is a list of tables, to which every further object
of the key is added; a list grows in the same way, and a plain value is replaced by one of its kind.

`Hcl.read` gives the entries of a document, which can also be written in JSON.
-/

namespace LiteralAudit.Hcl

/-- Why a document cannot be read. -/
inductive Error where
  | malformed
  /-- A quoted text has an escape that denotes no character. -/
  | escape
  deriving Repr, DecidableEq

def ofOption (e : Error) : Option α → Except Error α
  | some a => .ok a
  | none => .error e

/-- A plain value, which is of the kind of the `old` one if there is one. -/
def plain (old? : Option Setting) (token : Token) : Except Error Setting :=
  match old?, token with
  | none, .bool b | some (.bool _), .bool b => .ok (.bool b)
  | none, .whole t | some (.int _), .whole t =>
    ofOption .malformed ((Number.readLiteral? t).map .int)
  | some (.int _), .text t? => do
    ofOption .malformed ((Number.readLiteral? (← ofOption .escape t?)).map .int)
  | none, .decimal t | some (.float _), .decimal t | some (.float _), .whole t =>
    ofOption .malformed ((Number.readReal? t).map .float)
  | some (.text _), .whole t => .ok (.text t)
  | none, .text t? | some (.text _), .text t? => (ofOption .escape t?).map .text
  | _, _ => .error .malformed

/-- The items that have a first key, without it. -/
def group (key : Text) (items : List Item) : List Item :=
  items.filterMap fun (keys, node) => match keys with
    | some k :: rest => if k.toLower == key.toLower then some (rest, node) else none
    | _ => none

mutual

/-- The value of a node; within a list an object is one table. `depth` bounds how deep it nests. -/
def setting : Nat → Bool → Option Setting → Node → Except Error Setting
  | 0, _, _, _ => .error .malformed
  | depth + 1, inList, old?, node =>
    match node with
    | .literal token => plain old? token
    | .list nodes =>
      match old? with
      | none => do return .list (← nodes.mapM (setting depth true none))
      | some (.list olds) => do return .list (olds ++ (← nodes.mapM (setting depth true none)))
      | _ => .error .malformed
    | .object items =>
      match old? with
      | none => do
        let t := Setting.table (← entries depth items [] [] items)
        return if inList then t else .list [t]
      | some (.list olds) => do return .list (olds ++ [.table (← entries depth items [] [] items)])
      | _ => .error .malformed

/-- The entries that the items of an object give, after those of `done`. The items of a key that has
others behind it make one list of tables; `grouped` are the keys of which there is one. -/
def entries : Nat → List Item → List Text → List (Text × Setting) → List Item →
    Except Error (List (Text × Setting))
  | 0, _, _, _, _ => .error .malformed
  | _, _, _, done, [] => .ok done
  | depth + 1, all, grouped, done, (keys, node) :: rest =>
    match keys with
    | [] => .error .malformed
    | key? :: others => do
      let key ← ofOption .escape key?
      if grouped.contains key then entries depth all grouped done rest
      else if others.isEmpty then
        let v ← setting depth false (done.lookup key) node
        entries depth all grouped (Setting.put key v done) rest
      else
        let tables ← (group key all).mapM fun item => do
          return Setting.table (← entries depth [item] [] [] [item])
        let olds ← match done.lookup key with
          | none => .ok []
          | some (.list olds) => .ok olds
          | some _ => .error .malformed
        entries depth all (key :: grouped) (Setting.put key (.list (olds ++ tables)) done) rest

end

/-- Whether a document is written in JSON: it starts with a brace. -/
def isJson (s : List Char) : Bool := (s.dropWhile Unicode.isSpace).head? == some '\x7b'

/-- The characters of a document in JSON. Those from the first stray byte on are replaced by two with
which neither a text nor another token goes on: behind the document they do no harm. -/
def jsonChars (source : Text) : List Char :=
  let good := source.runes.takeWhile (!·.isStray)
  good.map (·.char) ++ if source.isUtf8 then [] else ['\n', '?']

/-- The items of a document. -/
def items? (source : Text) : Option (List Item) :=
  if isJson source.chars then parseJson? (scanJson (jsonChars source))
  else if !source.isUtf8 then none
  else parse? (scan (Text.replaceAll "\r\n" "\n" source).chars)

/-- The entries of a document. -/
def read (source : Text) : Except Error (List (Text × Setting)) := do
  let items ← ofOption .malformed (items? source)
  entries (2 * source.length + 2) items [] [] items

end LiteralAudit.Hcl
