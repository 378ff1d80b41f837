import LiteralAudit.Text.Quoted

/-!
# Lists of properties

A property is written on a line: its key, and behind `=`, `:` or blanks its value. A backslash escapes
the character behind it, and at the end of a line it goes on with the value on the next one. Lines that
start with `#` or `!` are comments.

A value can name others: `${key}` stands for the value of the key, or of the variable of that name if
no property has the key. `Properties.read?` gives the properties with these references replaced.
-/

namespace LiteralAudit.Properties

def isBlank (c : Char) : Bool := c == ' ' || c == '\t' || c == Char.ofNat 12

def isBreak (c : Char) : Bool := c == '\n' || c == '\r'

/-- Whether a character ends a key that it stands behind. -/
def endsKey (c : Char) : Bool := isBlank c || isBreak c || c == ':' || c == '='

/-! ## Keys and values -/

/-- The character with a number; a number without one stands for the replacement character. -/
def charOf (n : Nat) : Char := if n.isValidChar then Char.ofNat n else Rune.replacement

/-- The character that stands behind a backslash, and what follows it. -/
def escaped? : List Char → Option (Char × List Char)
  | [] => none
  | 'u' :: rest =>
    let digits := rest.take 4
    if digits.length < 4 then none
    else (Text.hexNumber? (Text.ofChars digits)).map fun n => (charOf n, rest.drop 4)
  | 'f' :: rest => some (Char.ofNat 12, rest)
  | 'n' :: rest => some ('\n', rest)
  | 'r' :: rest => some ('\r', rest)
  | 't' :: rest => some ('\t', rest)
  | c :: rest => some (c, rest)

/-- The rest of a key, `done` being what was read of it in reverse, and what follows it. -/
def keyFrom? : Nat → List Char → List Char → Option (List Char × List Char)
  | 0, _, _ => none
  | _, done, [] => some (done.reverse, [])
  | fuel + 1, done, c :: rest =>
    if c == '\\' then
      match escaped? rest with
      | some (e, rest) => keyFrom? fuel (e :: done) rest
      | none => none
    else if endsKey c then some (done.reverse, c :: rest)
    else keyFrom? fuel (c :: done) rest

/-- The rest of a value, `done` being what was read of it in reverse, and what follows its line. -/
def valueFrom? : Nat → List Char → List Char → Option (List Char × List Char)
  | 0, _, _ => none
  | _, done, [] => some (done.reverse, [])
  | fuel + 1, done, c :: rest =>
    if isBreak c then some (done.reverse, rest)
    else if c == '\\' then
      if rest.head?.any isBreak then valueFrom? fuel done ((rest.drop 1).dropWhile isBlank)
      else match escaped? rest with
        | some (e, rest) => valueFrom? fuel (e :: done) rest
        | none => none
    else valueFrom? fuel (c :: done) rest

/-- What divides a key from its value: blanks with at most one sign among them. -/
def skipDivider (s : List Char) : List Char :=
  let s := s.dropWhile isBlank
  let s := if s.head?.any fun c => c == ':' || c == '=' then s.drop 1 else s
  s.dropWhile isBlank

/-- A property at the start of the characters, and what follows its line. A key is not empty. -/
def property? (s : List Char) : Option ((Text × Text) × List Char) := do
  let (key, rest) ← keyFrom? (s.length + 1) [] s
  if key.isEmpty then none
  else
    let (value, rest) ← valueFrom? (rest.length + 1) [] (skipDivider rest)
    return ((Text.ofChars key, Text.ofChars value), rest)

/-- Auxiliary to `properties?`: `done` are the properties so far, in reverse. -/
def propertiesFrom? : Nat → List (Text × Text) → List Char → Option (List (Text × Text))
  | 0, _, _ => none
  | _, done, [] => some done.reverse
  | fuel + 1, done, c :: rest =>
    if isBlank c || isBreak c then propertiesFrom? fuel done rest
    else if c == '#' || c == '!' then propertiesFrom? fuel done (rest.dropWhile (!isBreak ·))
    else match property? (c :: rest) with
      | some (p, rest) => propertiesFrom? fuel (p :: done) rest
      | none => none

/-- The entries with the value of a key set; a key keeps its place. -/
def put (entries : List (Text × Text)) (p : Text × Text) : List (Text × Text) :=
  if (entries.lookup p.1).isSome then entries.map fun e => if e.1 == p.1 then p else e
  else entries ++ [p]

/-- The properties as they are written, the last one of each key. -/
def properties? (source : Text) : Option (List (Text × Text)) :=
  let s := source.chars
  (propertiesFrom? (s.length + 1) [] s).map fun ps => ps.foldl put []

/-! ## References -/

/-- How deep references may lead through others. -/
def maxDepth : Nat := 64

/-- A text with its references replaced, from the first one on; `fuel` bounds how many there are. -/
def replaceReferences? (value? : Text → Option Text) : Nat → Text → Option Text
  | 0, _ => none
  | fuel + 1, t =>
    match t.cut? "$\x7b" with
    | none => some t
    | some (before, rest) => do
      let (key, after) ← rest.cut? "\x7d"
      replaceReferences? value? fuel (before ++ (← value? key) ++ after)

/-- A text with its references replaced; `passed` are the keys that led here, to which none may lead
back. -/
def expand? (valueOf : Text → Text) : Nat → List Text → Text → Option Text
  | 0, _, _ => none
  | depth + 1, passed, t =>
    replaceReferences? (fun key =>
      if passed.contains key then none else expand? valueOf depth (key :: passed) (valueOf key))
      (t.length + 1000) t

/-- The properties of a text; `variable` gives the value of a variable. -/
def read? (variableValue : Text → Text) (source : Text) : Option (List (Text × Text)) := do
  let ps ← properties? source
  let valueOf (key : Text) : Text := (ps.lookup key).getD (variableValue key)
  ps.mapM fun (key, value) => do return (key, ← expand? valueOf maxDepth [key] value)

end LiteralAudit.Properties
