import LiteralAudit.Number.Decimal
import LiteralAudit.Text.Basic
import LiteralAudit.Text.Utf8

/-!
# JSON values

A JSON value as it is read or written. A number keeps the text that writes it, because reports hold
both 64-bit integers and doubles and the reader of a field decides which it wants. An object keeps
its fields in the order in which they stand.
-/

namespace LiteralAudit

/-- A JSON value. -/
inductive Json where
  | null
  | bool (b : Bool)
  | number (written : Text)
  | string (t : Text)
  | array (items : List Json)
  | object (fields : List (Text × Json))
  deriving Inhabited

namespace Json

/-- An integer. -/
def ofInt (i : Int) : Json := .number (Text.ofInt i)

def ofNat (n : Nat) : Json := .number (Text.ofNat n)

/-- An object with the fields given, in their order. -/
def record (fields : List (String × Json)) : Json := .object (fields.map fun (k, v) => (k, v))

/-- A field that is left out when it is empty. -/
def omitted (empty : Bool) (name : String) (j : Json) : List (String × Json) :=
  if empty then [] else [(name, j)]

/-- The fields of an object; none for any other value. -/
def fields : Json → List (Text × Json)
  | object fs => fs
  | _ => []

/-- The items of an array; none for any other value. -/
def items : Json → List Json
  | array xs => xs
  | _ => []

/-- The last field of the name given. -/
def get? (j : Json) (key : Text) : Option Json := j.fields.reverse.lookup key

end Json

end LiteralAudit

/-!
## Reading records from JSON

A field of a record takes its value from the members of an object that have its name in either letter
case. When several do, each is read into what the one before it left: a plain value is replaced, a
record keeps the fields that are not given again, and so do the items of a list at their places. Null
leaves a field as it was, except that a list, a table or a record that may be missing becomes missing.
A member of the wrong type makes the whole record unreadable.

Decoders return `none` for a value of the wrong type.
-/

namespace LiteralAudit.Json

/-- A character in lower case, as far as it can stand for an ASCII letter. -/
def foldChar (c : Char) : Char :=
  if c == '\u017F' then 's' else if c == '\u212A' then 'k' else c.toLower

/-- Whether a member's name is the name of a field. -/
def names (member field : Text) : Bool :=
  member.chars.map foldChar == field.chars.map foldChar

/-- The values given for a field, in their order. -/
def valuesOf (members : List (Text × Json)) (field : Text) : List Json :=
  (members.filter fun (k, _) => names k field).map (·.2)

/-- A field that null leaves as it was. -/
def field? (members : List (Text × Json)) (name : Text) (read? : Json → Option α) (missing : α) :
    Option α :=
  (valuesOf members name).foldlM (fun before v =>
    match v with
    | .null => some before
    | v => read? v) missing

/-- A field that null empties; `read?` reads a value into what was there. -/
def optional? (members : List (Text × Json)) (name : Text) (read? : Option α → Json → Option α) :
    Option (Option α) :=
  (valuesOf members name).foldlM (fun before v =>
    match v with
    | .null => some none
    | v => (read? before v).map some) none

def text? : Json → Option Text
  | .string t => some t
  | _ => none

def bool? : Json → Option Bool
  | .bool b => some b
  | _ => none

/-- An integer of 64 bits, written without point and exponent. -/
def int? : Json → Option Int
  | .number t => Number.readDecimal? t
  | _ => none

def float? : Json → Option Float
  | .number t => Number.readReal? t
  | _ => none

/-- The items of a list, and the ones that stood behind them when the list was longer. -/
structure Places (α : Type) where
  items : List α := []
  behind : List α := []

/-- A list read into the places of another. An item is read into what stood at its place, or into
`blank`, and null leaves it as it was. An empty list leaves no places. -/
def list? (read? : α → Json → Option α) (blank : α) (before? : Option (Places α)) :
    Json → Option (Places α)
  | .array [] => some {}
  | .array js =>
    let before := before?.getD {}
    let old := before.items ++ before.behind
    let slots := old.take js.length ++ List.replicate (js.length - old.length) blank
    let item? : α × Json → Option α
      | (a, .null) => some a
      | (a, j) => read? a j
    ((slots.zip js).mapM item?).map fun items => ⟨items, old.drop js.length⟩
  | _ => none

/-- The items of a list that is empty when it is missing. -/
def items? (members : List (Text × Json)) (name : Text) (read? : α → Json → Option α) (blank : α) :
    Option (List α) :=
  (optional? members name (list? read? blank)).map fun places? => (places?.map (·.items)).getD []

/-- The members of an object. -/
def members? : Json → Option (List (Text × Json))
  | .object ms => some ms
  | _ => none

end LiteralAudit.Json
