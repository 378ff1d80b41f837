import LiteralAudit.Number.Decimal
import LiteralAudit.Text.Base64
import LiteralAudit.Time.Timestamp
import LiteralAudit.Yaml.Node

/-!
# What YAML nodes mean

A plain scalar is null, a truth value, a number or a time when it looks like one, and a string
otherwise; a tag can insist. A field decodes a node as the type that it wants: texts take any scalar
as it is written, numbers and truth values only what denotes one, and null leaves a field as it is.

Decoders return `none` when a node does not fit, and `some none` for null.
-/

namespace LiteralAudit.Yaml

inductive Scalar where
  | null
  | bool (b : Bool)
  | int (i : Int)
  | float (x : Float)
  | timestamp
  | merge
  | text (t : Text)

namespace Scalar

/-- The tag of a scalar's kind. -/
def tag : Scalar → Text
  | null => "!!null"
  | bool _ => "!!bool"
  | int _ => "!!int"
  | float _ => "!!float"
  | timestamp => "!!timestamp"
  | merge => "!!merge"
  | text _ => "!!str"

end Scalar

/-- A tag with the common prefix abbreviated. -/
def shortTag (t : Text) : Text :=
  match Text.dropFront? "tag:yaml.org,2002:" t with
  | some suffix => "!!" ++ suffix
  | none => t

/-- The scalars that stand for themselves. -/
def constant? (t : Text) : Option Scalar :=
  if ["true", "True", "TRUE"].any (fun s => t == Text.ofString s) then some (.bool true)
  else if ["false", "False", "FALSE"].any (fun s => t == Text.ofString s) then some (.bool false)
  else if ["", "~", "null", "Null", "NULL"].any (fun s => t == Text.ofString s) then some .null
  else if [".nan", ".NaN", ".NAN"].any (fun s => t == Text.ofString s) then some (.float Number.nan)
  else if [".inf", ".Inf", ".INF", "+.inf", "+.Inf", "+.INF"].any (fun s => t == Text.ofString s)
  then some (.float Number.infinity)
  else if ["-.inf", "-.Inf", "-.INF"].any (fun s => t == Text.ofString s) then
    some (.float (-Number.infinity))
  else if t == "<<" then some .merge
  else none

/-- One or two digits at the start of a text. -/
def shortNumber? (t : Text) : Option (Nat × Text) :=
  let ds := (t.take 2).takeWhile Text.isDigit
  if ds.isEmpty then none
  else (Number.readDigits? 10 ds).map (·, t.drop ds.length)

/-- The time of day behind a date, and what follows it. -/
def skipTime? (t : Text) : Option Text := do
  let (hour, t) ← shortNumber? t
  let t ← Text.dropFront? ":" t
  let (minute, t) ← shortNumber? t
  let t ← Text.dropFront? ":" t
  let (second, t) ← shortNumber? t
  if hour ≥ 24 || minute ≥ 60 || second ≥ 60 then none
  else match t with
    | p :: rest =>
      if (p == '.' || p == ',') && rest.head?.any Text.isDigit then some (rest.dropWhile Text.isDigit)
      else some t
    | [] => some t

/-- A distance from universal time, such as `+02:00`. -/
def isZone (t : Text) : Bool :=
  t == "Z" ||
    match t with
    | [s, a, b, c, d, e] =>
      (s == '+' || s == '-') && c == ':' && [a, b, d, e].all Text.isDigit &&
        (10 * (a.toNat - 48) + (b.toNat - 48) ≤ 24) && (10 * (d.toNat - 48) + (e.toNat - 48) < 60)
    | _ => false

/-- Whether a scalar is a date, or a date with a time. -/
def isTimestamp (t : Text) : Bool :=
  let year := t.takeWhile Text.isDigit
  year.length == 4 && ((do
    let y ← Number.readDigits? 10 year
    let t ← Text.dropFront? "-" (t.drop 4)
    let (month, t) ← shortNumber? t
    let t ← Text.dropFront? "-" t
    let (day, t) ← shortNumber? t
    let dateOk := 1 ≤ month && month ≤ 12 && 1 ≤ day && day ≤ Time.daysIn y month
    if !dateOk then none
    else match t with
      | [] => some true
      | sep :: t =>
        let rest ← skipTime? t
        some (if sep == ' ' then rest.isEmpty else (sep == 'T' || sep == 't') && isZone rest))
      : Option Bool).getD false

/-- A number with digits before or behind a point, and an exponent if it has one. -/
def looksDecimal (t : Text) : Bool :=
  let (_, body) := Number.splitSign t
  let whole := body.takeWhile Text.isDigit
  let rest := body.drop whole.length
  let (pointed, fraction, rest) := match rest with
    | p :: after =>
      if p == '.' then (true, after.takeWhile Text.isDigit, after.dropWhile Text.isDigit)
      else (false, [], rest)
    | [] => (false, [], [])
  let digits := !whole.isEmpty || (pointed && !fraction.isEmpty)
  let exponent := match rest with
    | [] => true
    | e :: after =>
      let (_, ds) := Number.splitSign after
      (e == 'e' || e == 'E') && !ds.isEmpty && ds.all Text.isDigit
  digits && exponent

/-- An integer of up to 64 bits, with or without sign. -/
def integer? (base? : Option Nat) (t : Text) : Option Int :=
  let (negative, body) := Number.splitSign t
  let signed := body.length < t.length
  let n? := match base? with
    | some base => if body.isEmpty then none else Number.readDigits? base body
    | none =>
      let (base, digits) := Number.splitBase body
      if body.isEmpty then none else Number.readDigits? base digits
  n?.bind fun n =>
    let i : Int := if negative then -n else n
    if Number.fits64 i || (!signed && n < Nat.pow 2 64) then some i else none

/-- A number of any of the notations. -/
def number? (t : Text) : Option Scalar :=
  let plain := t.filter fun (b : UInt8) => b != '_'
  let based (front : Text) (base : Nat) : Option Scalar :=
    match Text.dropFront? front plain, Text.dropFront? ("-" ++ front) plain with
    | some ds, _ => (integer? (some base) ds).map .int
    | none, some ds => (integer? (some base) ("-" ++ ds)).map .int
    | none, none => none
  match integer? none plain with
  | some i => some (.int i)
  | none =>
    match if looksDecimal plain then Number.readReal? plain else none with
    | some x => some (.float x)
    | none => (based "0b" 2).or (based "0o" 8)

/-- What a scalar without quotes means; `timed` allows times. -/
def meaning (timed : Bool) (t : Text) : Scalar :=
  match constant? t with
  | some s => s
  | none =>
    match t with
    | [] => .null
    | b :: _ =>
      if b == '.' then
        match Number.readReal? t with
        | some x => .float x
        | none => .text t
      else if Text.isDigit b || b == '+' || b == '-' then
        if timed && isTimestamp t then .timestamp else (number? t).getD (.text t)
      else .text t

/-- The tags that a scalar must agree with. -/
def scalarTags : List Text := ["!!bool", "!!int", "!!float", "!!null", "!!timestamp"]

/-- What a scalar means under its tag; none when the two do not agree. Under a tag that is not one of
the common ones a scalar is a string. -/
def resolve? (tag : Text) (style : Style) (t : Text) : Option Scalar :=
  let tag := if tag == "!" then [] else shortTag tag
  if tag.isEmpty && style == .quoted then some (.text t)
  else if tag == "!!binary" then
    (Text.ofBase64? (t.filter fun (b : UInt8) => b != '\n' && b != '\r')).map .text
  else if !tag.isEmpty && !scalarTags.contains tag then some (.text t)
  else
    let s := meaning (tag.isEmpty || tag == "!!timestamp") t
    if tag.isEmpty || tag == s.tag then some s
    else match s with
      | .int i => if tag == "!!float" then some (.float (Float.ofInt i)) else none
      | _ => none

namespace Node

/-- Whether two keys of a mapping count as the same. -/
def sameKey : Node → Node → Bool
  | scalar _ _ a, scalar _ _ b => a == b
  | sequence .., sequence .. => true
  | mapping .., mapping .. => true
  | aliased a _, aliased b _ => a == b
  | _, _ => false

/-- A mapping gives no key twice. -/
def distinctKeys : List (Node × Node) → Bool
  | [] => true
  | (k, _) :: rest => !rest.any (fun e => sameKey k e.1) && distinctKeys rest

/-- The key that merges another mapping. -/
def isMergeKey : Node → Bool
  | scalar tag style t =>
    t == "<<" && (((tag.isEmpty || tag == "!") && style == .plain) || shortTag tag == "!!merge")
  | _ => false

/-- The node that an alias names, or the node itself; none for an alias inside the node it names. -/
def named? : Node → Option Node
  | aliased _ target? => target?
  | n => some n

/-- What a scalar means. -/
def scalar? (n : Node) : Option Scalar :=
  match n.named? with
  | some (scalar tag style t) => resolve? tag style t
  | _ => none

/-- The text of a scalar. -/
def text? (n : Node) : Option (Option Text) :=
  match n.named? with
  | some (scalar tag style t) =>
    match resolve? tag style t with
    | none => none
    | some .null => some none
    | some (.text v) => some (some (if shortTag tag == "!!binary" then v else t))
    | some _ => some (some t)
  | _ => none

/-- Truth values, of which the old spellings count too. -/
def bool? (n : Node) : Option (Option Bool) :=
  match n.scalar? with
  | some .null => some none
  | some (.bool b) => some (some b)
  | some (.text w) =>
    if w == "y" || w == "Y" || w == "yes" || w == "on" then some (some true)
    else if w == "n" || w == "N" || w == "no" || w == "off" then some (some false)
    else none
  | _ => none

/-- Integers; a fraction is cut off. -/
def int? (n : Node) : Option (Option Int) :=
  match n.scalar? with
  | some .null => some none
  | some (.int i) => if Number.fits64 i then some (some i) else none
  | some (.float x) => if x ≤ 9223372036854775807.0 then some (some (Number.truncate64 x)) else none
  | _ => none

def float? (n : Node) : Option (Option Float) :=
  match n.scalar? with
  | some .null => some none
  | some (.int i) => some (some (Float.ofInt i))
  | some (.float x) => some (some x)
  | _ => none

/-- The items of a list, null ones left out. -/
def list? (item? : Node → Option (Option α)) (n : Node) : Option (Option (List α)) :=
  match n.named? with
  | some (sequence _ items) => (items.mapM item?).map fun xs => some (xs.filterMap id)
  | _ =>
    match n.scalar? with
    | some .null => some none
    | _ => none

/-- The mappings that a merge key merges; none when it asks for something else. A list must stand
there itself. -/
def merged? : Node → Option (List Node)
  | n@(mapping ..) => some [n]
  | aliased _ (some n@(mapping ..)) => some [n]
  | sequence _ items => items.mapM fun n =>
    match n.named? with
    | some m@(mapping ..) => some m
    | _ => none
  | _ => none

/-- The entries of a mapping by the names of their keys. Those that it merges stand behind its own and
give no name again. `depth` bounds how far mappings merge others. -/
def entries? (depth : Nat) (n : Node) : Option (List (Text × Node)) :=
  match depth, n with
  | depth + 1, mapping _ es =>
    if !distinctKeys es then none
    else do
      let own ← (es.filter (!isMergeKey ·.1)).mapM fun (k, v) => do
        return (← text? k).map fun name => (name, v)
      let merged ← (es.filter (isMergeKey ·.1)).mapM fun (_, v) => do
        (← merged? v).mapM (entries? depth)
      return merged.flatten.flatten.foldl
        (fun es e => if es.any (·.1 == e.1) then es else es ++ [e]) (own.filterMap id)
  | _, _ => none

/-- How far mappings may merge others. -/
def mergeDepth : Nat := 1000

/-- A record, read from the entries of a mapping. -/
def record? (read? : List (Text × Node) → Option α) (n : Node) : Option (Option α) :=
  match n.named? with
  | some m@(mapping ..) => ((entries? mergeDepth m).bind read?).map some
  | _ =>
    match n.scalar? with
    | some .null => some none
    | _ => none

end Node

/-- A field of a record, with its value when it is missing or null. It may be given only once. -/
def field? (es : List (Text × Node)) (name : Text) (read? : Node → Option (Option α))
    (missing : α) : Option α :=
  match es.filter (·.1 == name) with
  | [] => some missing
  | [(_, n)] => (read? n).map (·.getD missing)
  | _ => none

end LiteralAudit.Yaml

/-!
## How far aliases expand a document

A few aliases of aliases can stand for a document of any size. Reading a whole document therefore
counts the nodes that it visits, and how many of them lie inside aliases; when too great a share of
a large number does, the document is refused (`Node.isExpandable`).
-/

namespace LiteralAudit.Yaml

/-- How many nodes were visited, and how many of them inside aliases. -/
structure Effort where
  visits : Nat := 0
  aliased : Nat := 0

namespace Effort

/-- The share of visits that may lie inside aliases: nearly all of up to 400,000, and a tenth of
4,000,000 or more. -/
def allowedShare (visits : Nat) : Float :=
  if visits ≤ 400000 then 0.99
  else if visits ≥ 4000000 then 0.10
  else 0.99 - 0.89 * (Float.ofNat (visits - 400000) / 3600000.0)

def isExcessive (e : Effort) : Bool :=
  e.aliased > 100 && e.visits > 1000 &&
    Float.ofNat e.aliased / Float.ofNat e.visits > allowedShare e.visits

/-- The effort after one more visit; none when it is excessive. -/
def visit (inAlias : Bool) (e : Effort) : Option Effort :=
  let e : Effort := ⟨e.visits + 1, e.aliased + (if inAlias then 1 else 0)⟩
  if e.isExcessive then none else some e

end Effort

namespace Node

mutual

/-- The effort after a node has been read. -/
def effort (inAlias : Bool) (e : Effort) : Node → Option Effort
  | .scalar .. => e.visit inAlias
  | .sequence _ items => (e.visit inAlias).bind fun e => effortOfItems inAlias e items
  | .mapping _ entries => (e.visit inAlias).bind fun e => effortOfEntries inAlias e entries
  | .aliased _ (some n) => (e.visit inAlias).bind fun e => effort true e n
  | .aliased _ none => e.visit inAlias

def effortOfItems (inAlias : Bool) (e : Effort) : List Node → Option Effort
  | [] => some e
  | n :: rest => (effort inAlias e n).bind fun e => effortOfItems inAlias e rest

def effortOfEntries (inAlias : Bool) (e : Effort) : List (Node × Node) → Option Effort
  | [] => some e
  | (k, v) :: rest =>
    ((effort inAlias e k).bind fun e => effort inAlias e v).bind fun e =>
      effortOfEntries inAlias e rest

end

/-- Whether a document can be read without excessive effort. -/
def isExpandable (n : Node) : Bool := (effort false ⟨1, 0⟩ n).isSome

end Node

end LiteralAudit.Yaml
