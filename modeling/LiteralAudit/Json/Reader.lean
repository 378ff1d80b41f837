import LiteralAudit.Json.Basic
import LiteralAudit.Text.Utf8

/-!
# Reading JSON

`Json.read?` reads a whole text as one JSON value. Stray bytes inside strings become U+FFFD, as do
escaped surrogates without a partner. Values may nest ten thousand deep.
-/

namespace LiteralAudit.Json

def isBlank (c : Char) : Bool := c == ' ' || c == '\t' || c == '\n' || c == '\r'

def skipBlanks (s : List Char) : List Char := s.dropWhile isBlank

def hexDigit? (c : Char) : Option Nat :=
  if c.isDigit then some (c.toNat - 48)
  else if 'a' ≤ c && c ≤ 'f' then some (c.toNat - 87)
  else if 'A' ≤ c && c ≤ 'F' then some (c.toNat - 55)
  else none

/-- Four hexadecimal digits. -/
def readUnit? : List Char → Option (Nat × List Char)
  | a :: b :: c :: d :: rest =>
    match hexDigit? a, hexDigit? b, hexDigit? c, hexDigit? d with
    | some a, some b, some c, some d => some (((a * 16 + b) * 16 + c) * 16 + d, rest)
    | _, _, _, _ => none
  | _ => none

/-- The character that two surrogate units write together. -/
def pairOfUnits? (high low : Nat) : Option Char :=
  if 0xD800 ≤ high && high < 0xDC00 && 0xDC00 ≤ low && low < 0xE000 then
    some (Char.ofNat (0x10000 + (high - 0xD800) * 0x400 + (low - 0xDC00)))
  else none

/-- The character written by a unit, joined with the unit after it when the two are a pair. -/
def charOfUnit (unit : Nat) (rest : List Char) : Char × List Char :=
  if 0xD800 ≤ unit && unit < 0xE000 then
    let next? := match rest with
      | '\\' :: 'u' :: more => readUnit? more
      | _ => none
    match next? with
    | some (low, after) =>
      match pairOfUnits? unit low with
      | some c => (c, after)
      | none => (Rune.replacement, rest)
    | none => (Rune.replacement, rest)
  else (Char.ofNat unit, rest)

/-- The rest of a string after its opening quote; the characters read so far are in reverse. -/
def readString? : Nat → List Char → List Char → Option (List Char × List Char)
  | 0, _, _ => none
  | fuel + 1, done, s =>
    match s with
    | [] => none
    | '"' :: rest => some (done.reverse, rest)
    | '\\' :: 'u' :: rest =>
      match readUnit? rest with
      | none => none
      | some (unit, rest) =>
        let (c, rest) := charOfUnit unit rest
        readString? fuel (c :: done) rest
    | '\\' :: e :: rest =>
      let c? : Option Char := match e with
        | '"' => some '"'
        | '\\' => some '\\'
        | '/' => some '/'
        | 'b' => some (Char.ofNat 8)
        | 'f' => some (Char.ofNat 12)
        | 'n' => some '\n'
        | 'r' => some '\r'
        | 't' => some '\t'
        | _ => none
      match c? with
      | some c => readString? fuel (c :: done) rest
      | none => none
    | c :: rest => if c.toNat < 0x20 then none else readString? fuel (c :: done) rest

/-- Digits at the start of a text, at least one. -/
def readDigits? (s : List Char) : Option (List Char × List Char) :=
  match s.takeWhile Char.isDigit with
  | [] => none
  | ds => some (ds, s.drop ds.length)

/-- A number: the characters that write it, and what follows. -/
def readNumber? (s : List Char) : Option (List Char × List Char) := do
  let (minus, t) := match s with
    | '-' :: t => (['-'], t)
    | _ => ([], s)
  let (whole, t) ← match t with
    | '0' :: t => some (['0'], t)
    | t => readDigits? t
  let (fraction, t) ← match t with
    | '.' :: u => (readDigits? u).map fun (ds, v) => ('.' :: ds, v)
    | t => some ([], t)
  let (exponent, t) ← match t with
    | e :: u =>
      if e == 'e' || e == 'E' then
        match u with
        | c :: v =>
          if c == '+' || c == '-' then (readDigits? v).map fun (ds, w) => (e :: c :: ds, w)
          else (readDigits? u).map fun (ds, w) => (e :: ds, w)
        | [] => none
      else some ([], t)
    | [] => some ([], [])
  some (minus ++ whole ++ fraction ++ exponent, t)

/-- How deep values may nest. -/
def maxDepth : Nat := 10000

mutual

/-- A value at the start of a text, which has no blanks before it. -/
def readValue? (depth : Nat) : Nat → List Char → Option (Json × List Char)
  | 0, _ => none
  | fuel + 1, s =>
    match s with
    | '{' :: rest =>
      if depth ≥ maxDepth then none
      else match skipBlanks rest with
        | '}' :: rest => some (.object [], rest)
        | rest => readFields? (depth + 1) fuel [] rest
    | '[' :: rest =>
      if depth ≥ maxDepth then none
      else match skipBlanks rest with
        | ']' :: rest => some (.array [], rest)
        | rest => readItems? (depth + 1) fuel [] rest
    | '"' :: rest =>
      (readString? (rest.length + 1) [] rest).map fun (cs, rest) =>
        (.string (Text.ofChars cs), rest)
    | 't' :: 'r' :: 'u' :: 'e' :: rest => some (.bool true, rest)
    | 'f' :: 'a' :: 'l' :: 's' :: 'e' :: rest => some (.bool false, rest)
    | 'n' :: 'u' :: 'l' :: 'l' :: rest => some (.null, rest)
    | s => (readNumber? s).map fun (cs, rest) => (.number (Text.ofChars cs), rest)

/-- The items of an array up to its closing bracket; those read so far are in reverse. -/
def readItems? (depth : Nat) : Nat → List Json → List Char → Option (Json × List Char)
  | 0, _, _ => none
  | fuel + 1, done, s =>
    match readValue? depth fuel s with
    | none => none
    | some (v, rest) =>
      match skipBlanks rest with
      | ',' :: rest => readItems? depth fuel (v :: done) (skipBlanks rest)
      | ']' :: rest => some (.array (v :: done).reverse, rest)
      | _ => none

/-- The fields of an object up to its closing brace; those read so far are in reverse. -/
def readFields? (depth : Nat) : Nat → List (Text × Json) → List Char → Option (Json × List Char)
  | 0, _, _ => none
  | fuel + 1, done, s =>
    match s with
    | '"' :: rest =>
      match readString? (rest.length + 1) [] rest with
      | none => none
      | some (key, rest) =>
        match skipBlanks rest with
        | ':' :: rest =>
          match readValue? depth fuel (skipBlanks rest) with
          | none => none
          | some (v, rest) =>
            let done := (Text.ofChars key, v) :: done
            match skipBlanks rest with
            | ',' :: rest => readFields? depth fuel done (skipBlanks rest)
            | '}' :: rest => some (.object done.reverse, rest)
            | _ => none
        | _ => none
    | _ => none

end

/-- The value that a whole text writes. -/
def read? (t : Text) : Option Json :=
  let s := t.chars
  match readValue? 0 (s.length + 1) (skipBlanks s) with
  | some (v, rest) => if (skipBlanks rest).isEmpty then some v else none
  | none => none

end LiteralAudit.Json
