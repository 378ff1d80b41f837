import LiteralAudit.Unicode.Case

/-!
# Sections of keys

A text of sections: a line in brackets starts a section, and every other line gives a key of it a
value. Keys before the first section belong to the section `DEFAULT`. A value can go on over several
lines, between triple quotes, between backquotes, or by a backslash at the end of a line.

`%(key)s` in a value stands for the value of another key. `Ini.read?` gives the sections with these
references replaced.
-/

namespace LiteralAudit.Ini

structure Section where
  name : Text
  keys : List (Text × Text) := []
  deriving Repr, DecidableEq

/-- The section of the keys that stand before any other. -/
def defaultName : Text := "DEFAULT"

/-! ## Lines -/

/-- Auxiliary to `linesOf`: `line` is the current line so far, in reverse. -/
def linesFrom (line : Text) : Text → List Text
  | [] => [line.reverse]
  | b :: rest => if b == '\n' then (b :: line).reverse :: linesFrom [] rest else linesFrom (b :: line) rest

/-- The lines of a text with their breaks. The last one has none, and may be empty. -/
def linesOf (t : Text) : List Text := linesFrom [] t

/-- The text without a byte order mark. -/
def dropMark : Text → Text
  | 0xFE :: 0xFF :: rest => rest
  | 0xFF :: 0xFE :: rest => rest
  | 0xEF :: 0xBB :: 0xBF :: rest => rest
  | t => t

/-- Where `needle` occurs last. -/
def lastIndexOf? (t needle : Text) : Option Nat :=
  (Text.indexOf? t.reverse needle.reverse).map fun i => t.length - i - needle.length

/-! ## Keys -/

def isDivider (b : UInt8) : Bool := b == '=' || b == ':'

/-- The quotes that a key in quotes starts with. -/
def keyQuote (line : Text) : Text :=
  if Text.startsWith line "\"\"\"" && line.length > 6 then "\"\"\""
  else if Text.startsWith line "\"" then "\""
  else if line.head?.any (·.toNat == 0x60) then [0x60]
  else []

/-- The key of a line and what follows the sign behind it. Between quotes a key may hold such signs. -/
def key? (line : Text) : Option (Text × Text) := do
  let quote := keyQuote line
  let (key, rest) ← if quote.isEmpty then some ([], line) else Text.cut? (line.drop quote.length) quote
  let i ← rest.findIdx? isDivider
  let key : Text := if quote.isEmpty then rest.take i else key
  if quote.isEmpty && i == 0 then none
  else if key.trimSpace.isEmpty then none
  else some (key.trimSpace, rest.drop (i + 1))

/-! ## Values -/

/-- A value that goes on up to a line with its quotes, and the lines behind that one. -/
def quotedOver? (quote done : Text) : List Text → Option (Text × List Text)
  | [] => none
  | line :: lines =>
    match lastIndexOf? line quote with
    | some i => some (done ++ line.take i, lines)
    | none => if lines.isEmpty then none else quotedOver? quote (done ++ line) lines

/-- A value that goes on as long as its lines end in a backslash, and the lines behind it. -/
def continued (done : Text) : List Text → Text × List Text
  | [] => (done, [])
  | line :: lines =>
    let line := line.trimSpace
    if line.getLast? == some ('\\' : UInt8) then continued (done ++ line.dropLast) lines
    else (done ++ line, lines)

/-- Whether a text stands between quotes and holds no others. -/
def isBetween (quote : UInt8) (t : Text) : Bool :=
  2 ≤ t.length && t.head? == some quote && t.getLast? == some quote && t.count quote == 2

/-- A value on one line, without the comment behind it and without quotes around it. -/
def plainValue (t : Text) : Text :=
  let t := match t.findIdx? fun (b : UInt8) => b == '#' || b == ';' with
    | some i => Text.trimSpace (t.take i)
    | none => t
  if isBetween '\'' t || isBetween '"' t then (t.drop 1).dropLast else t

/-- The value at the end of a line, and the lines behind it. -/
def value? (t : Text) (lines : List Text) : Option (Text × List Text) :=
  let t := t.trimSpaceStart
  let quote : Text := if Text.startsWith t "\"\"\"" && t.length > 3 then "\"\"\""
    else if t.head?.any (·.toNat == 0x60) then [0x60]
    else []
  if !quote.isEmpty then
    let inner := t.drop quote.length
    match lastIndexOf? inner quote with
    | some i => some (inner.take i, lines)
    | none => quotedOver? quote inner lines
  else
    let t := t.trimSpace
    if t.getLast? == some ('\\' : UInt8) then some (continued t.dropLast lines)
    else some (plainValue t, lines)

/-! ## Sections -/

/-- The sections with a key of one of them set, which is added if there is none. -/
def assign (name : Text) (key? : Option (Text × Text)) (sections : List Section) : List Section :=
  let add (keys : List (Text × Text)) : List (Text × Text) := match key? with
    | none => keys
    | some (key, value) =>
      if (keys.lookup key).isSome then
        keys.map fun k => if k.1 == key then (key, value) else k
      else keys ++ [(key, value)]
  if sections.any (·.name == name) then
    sections.map fun s => if s.name == name then { s with keys := add s.keys } else s
  else sections ++ [{ name, keys := add [] }]

/-- What has been read: the sections, the name of the current one, and the number that its next key
without a name gets. -/
structure Reading where
  sections : List Section := [{ name := defaultName }]
  current : Text := defaultName
  next : Nat := 1

/-- The name of a section that a line starts. -/
def header? (line : Text) : Option Text :=
  match Text.lastIndexOfByte? line ']' with
  | some i => some ((line.take i).drop 1)
  | none => none

def readLines? : Nat → List Text → Reading → Option (List Section)
  | 0, _, _ => none
  | _, [], r => some r.sections
  | fuel + 1, line :: lines, r =>
    let line := line.trimSpaceStart
    match line with
    | [] => readLines? fuel lines r
    | b :: _ =>
      if b == '#' || b == ';' then readLines? fuel lines r
      else if b == '[' then
        match header? line with
        | none | some [] => none
        | some name =>
          readLines? fuel lines
            { sections := assign name none r.sections, current := name, next := 1 }
      else match key? line with
        | none => none
        | some (key, rest) =>
          match value? rest lines with
          | none => none
          | some (value, lines) =>
            let numbered := key == Text.ofString "-"
            let key : Text := if numbered then "#" ++ Text.ofNat r.next else key
            readLines? fuel lines
              { r with
                sections := assign r.current (some (key, value)) r.sections
                next := if numbered then r.next + 1 else r.next }

/-! ## References -/

def keyOf? (sections : List Section) (name key : Text) : Option Text :=
  (sections.find? (·.name == name)).bind (·.keys.lookup key)

/-- The value of a key in the sections that a name lies in: those of the name without its last parts. -/
def inheritedKey? (sections : List Section) (key : Text) : Nat → Text → Option Text
  | 0, _ => none
  | fuel + 1, name =>
    match Text.lastIndexOfByte? name '.' with
    | none => none
    | some i =>
      let outer := if i == 0 then defaultName else name.take i
      (keyOf? sections outer key).or (inheritedKey? sections key fuel (name.take i))

/-- The value that a key named in another one stands for: that of the same section, of one around it,
or of the default section. -/
def referred? (sections : List Section) (name own key : Text) : Option Text :=
  let nearby? := match keyOf? sections name key with
    | some value => if key == own then none else some value
    | none => inheritedKey? sections key name.length name
  nearby?.or (keyOf? sections defaultName key)

/-- The first key that a text names. -/
def reference? : Text → Option Text
  | [] => none
  | b :: rest =>
    let named? := do
      let rest ← Text.dropFront? "%(" (b :: rest)
      let key := rest.takeWhile fun (b : UInt8) => b != ')'
      if !key.isEmpty && Text.startsWith (rest.drop key.length) ")s" then some key else none
    named?.or (reference? rest)

/-- How often a reference of a value is replaced. -/
def maxReplaced : Nat := 99

/-- A value with its references replaced, as far as there is something that they name. -/
def expand (value? : Text → Option Text) : Nat → Text → Text
  | 0, t => t
  | n + 1, t =>
    match reference? t with
    | none => t
    | some key => match value? key with
      | some value => expand value? n (Text.replaceAll ("%(" ++ key ++ ")s") value t)
      | none => t

/-- The sections of a text. -/
def read? (source : Text) : Option (List Section) := do
  let lines := linesOf (dropMark source)
  let sections ← readLines? (lines.length + 1) lines {}
  return sections.map fun s => { s with
    keys := s.keys.map fun (key, value) =>
      (key, expand (referred? sections s.name key) maxReplaced value) }

end LiteralAudit.Ini
