import LiteralAudit.Text.Utf8
import LiteralAudit.Unicode.Case

/-!
# Lists of variables

A line gives a variable its value: `name=value` or `name: value`, with `export` before it or not. A
value can stand in single quotes, which keep it as it is, or in double quotes, in which a backslash
escapes; a value in quotes can go on over several lines. Elsewhere `#` starts a comment.

`$NAME` and `${NAME}` stand for the value of a variable: that of the environment, or of an earlier
line. `Dotenv.read?` gives the variables in the order of their lines.
-/

/-!
## Units of sixteen bits

Text in UTF-16: pairs of bytes make units of sixteen bits, and a unit makes a character, unless it is a
surrogate, of which two make one. What makes no character is read as U+FFFD.
-/

namespace LiteralAudit.Text

def isSurrogate (n : Nat) : Bool := 0xD800 ≤ n && n < 0xE000

def isLowSurrogate (n : Nat) : Bool := 0xDC00 ≤ n && n < 0xE000

/-- The character that two surrogates make. -/
def ofSurrogates (hi lo : Nat) : Char :=
  if isLowSurrogate hi then Rune.replacement
  else Char.ofNat (0x10000 + (hi - 0xD800) * 0x400 + (lo - 0xDC00))

/-- The characters that units of sixteen bits write. A surrogate goes with the low one behind it, if
there is one. -/
def charsOfUnits : List Nat → List Char
  | [] => []
  | [n] => [if isSurrogate n then Rune.replacement else Char.ofNat n]
  | n :: lo :: rest =>
    if !isSurrogate n then Char.ofNat n :: charsOfUnits (lo :: rest)
    else if isLowSurrogate lo then ofSurrogates n lo :: charsOfUnits rest
    else Rune.replacement :: charsOfUnits (lo :: rest)

/-- The units of sixteen bits that pairs of bytes write, the greater byte first if `big`, and whether a
byte is left. -/
def unitsOf (big : Bool) : Text → List Nat × Bool
  | [] => ([], false)
  | [_] => ([], true)
  | a :: b :: rest =>
    let n := if big then 256 * a.toNat + b.toNat else 256 * b.toNat + a.toNat
    let (units, odd) := unitsOf big rest
    (n :: units, odd)

/-- The characters that pairs of bytes write, the greater byte of a pair first if `big`. -/
def charsOfPairs (big : Bool) (t : Text) : List Char :=
  let (units, odd) := unitsOf big t
  charsOfUnits units ++ if odd then [Rune.replacement] else []

end LiteralAudit.Text

namespace LiteralAudit.Dotenv

/-! ## Lines -/

/-- Auxiliary to `linesOf`: `line` is the current line so far, in reverse. -/
def linesFrom (line : Text) : Text → List Text
  | [] => if line.isEmpty then [] else [line.reverse]
  | 0x0D :: 0x0A :: rest => line.reverse :: linesFrom [] rest
  | b :: rest =>
    if b == '\n' || b == '\r' then line.reverse :: linesFrom [] rest else linesFrom (b :: line) rest

/-- The lines of a text, with breaks of any kind between them. -/
def linesOf (t : Text) : List Text := linesFrom [] t

/-- The text behind a byte order mark, from UTF-16 if the mark says so. -/
def decode : Text → Text
  | 0xEF :: 0xBB :: 0xBF :: rest => Text.toUtf8 rest
  | 0xFF :: 0xFE :: rest => Text.ofChars (Text.charsOfPairs false rest)
  | 0xFE :: 0xFF :: rest => Text.ofChars (Text.charsOfPairs true rest)
  | t => t

/-- How long a line may be. -/
def maxLine : Nat := 65535

/-- The quote that a line opens and does not close: that of a value which goes on over more lines. -/
def openQuote? (line : Text) : Option UInt8 := do
  let i ← (Text.indexOfByte? line '=').or (Text.indexOfByte? line ':')
  if i == 0 || line.length ≤ i + 1 then none
  else
    let value := Text.trimSpace (line.drop (i + 1))
    let quote ← value.head?
    if quote != '"' && quote != '\'' then none
    else match Text.lastIndexOfByte? (Text.trimSpace (value.drop 1)) quote with
      | some k => if (value.drop k).head? == some ('\\' : UInt8) then some quote else none
      | none => some quote

/-- Whether a line closes a quote: the last one on it has no backslash before it. -/
def closes (quote : UInt8) (line : Text) : Bool :=
  match Text.lastIndexOfByte? line quote with
  | none => false
  | some 0 => true
  | some (i + 1) => (line.drop i).head? != some ('\\' : UInt8)

/-- The lines that a value goes on over, joined to the one it starts on, and the lines behind them. -/
def joinQuoted? (quote : UInt8) (done : Text) : List Text → Option (Text × List Text)
  | [] => none
  | line :: lines =>
    let done : Text := done ++ ([10] ++ line)
    if closes quote line then some (done, lines) else joinQuoted? quote done lines

/-- The assignments of some lines as they are written. -/
def assignments? : Nat → List Text → Option (List Text)
  | 0, _ => none
  | _, [] => some []
  | fuel + 1, line :: lines =>
    let line := line.trimSpace
    if line.isEmpty || line.head? == some ('#' : UInt8) then assignments? fuel lines
    else match openQuote? line with
      | none => (assignments? fuel lines).map (line :: ·)
      | some quote => do
        let (line, lines) ← joinQuoted? quote line lines
        return line :: (← assignments? fuel lines)

/-! ## Assignments -/

def isBlank (b : UInt8) : Bool := b == ' ' || b == '\t' || b == '\n' || b == '\r' || b.toNat == 12

def isWord (b : UInt8) : Bool := Text.isAlpha b || Text.isDigit b || b == '_'

def isName (b : UInt8) : Bool := isWord b || b == '.'

/-- Whether nothing but blanks and a comment is left. -/
def isTail (t : Text) : Bool :=
  let t := t.dropWhile isBlank
  t.isEmpty || (t.head? == some ('#' : UInt8) && !List.contains t '\n')

/-- The longest value in quotes at the start of a text that nothing but a comment follows. -/
def quotedValue? (t : Text) : Option Text := do
  let quote ← t.head?
  if quote != '"' && quote != '\'' then none
  else
    let quotes := (t.zipIdx.filter fun (b, i) => b == quote && 0 < i).reverse
    let (_, i) ← quotes.find? fun (_, i) => isTail (t.drop (i + 1))
    return t.take (i + 1)

/-- The value that a text gives, up to a comment. -/
def valueIn? (t : Text) : Option Text :=
  match quotedValue? t with
  | some value => some value
  | none =>
    let value := t.takeWhile fun (b : UInt8) => b != '#' && b != '\n'
    if isTail (t.drop value.length) then some value else none

/-- The value behind a blank, or behind more if that is no value. -/
def valueBehind? : Nat → Text → Option Text
  | 0, _ => none
  | fuel + 1, t =>
    match t with
    | b :: rest => if isBlank b then (valueIn? rest).or (valueBehind? fuel rest) else none
    | [] => none

/-- The name that a text assigns to and the value as it is written. -/
def nameAndValue? (t : Text) : Option (Text × Text) := do
  let name := t.takeWhile isName
  let rest := t.drop name.length
  let value ← if name.isEmpty then none
    else match rest.dropWhile isBlank with
      | 0x3D :: value => valueIn? (value.dropWhile isBlank)
      | _ => match rest with
        | 0x3A :: value => valueBehind? (value.length + 1) value
        | _ => none
  return (name, value.trimSpace)

/-- The same with `export` before it or not. -/
def split? (t : Text) : Option (Text × Text) :=
  let t := t.dropWhile isBlank
  let exported? := match Text.dropFront? "export" t with
    | some (b :: rest) => if isBlank b then nameAndValue? (rest.dropWhile isBlank) else none
    | _ => none
  exported?.or (nameAndValue? t)

/-! ## Values -/

/-- A text without the backslashes that escape what is behind them. Those before `$` stay. -/
def unescape : Text → Text
  | 0x5C :: b :: rest => if b == '$' then 0x5C :: b :: unescape rest else b :: unescape rest
  | b :: rest => b :: unescape rest
  | [] => []

def isVariable (b : UInt8) : Bool := Text.isUpper b || Text.isDigit b || b == '_'

/-- What stands for a variable behind `$`: its name, and how long the whole is. -/
def variableAt (t : Text) : Text × Nat :=
  let opened := t.head?.any (·.toNat == 0x7B)
  let body := if opened then t.drop 1 else t
  let name := body.takeWhile isVariable
  let closed := (body.drop name.length).head?.any (·.toNat == 0x7D)
  (name, (if opened then 1 else 0) + name.length + (if closed then 1 else 0))

/-- A text with its variables replaced, of which `skip` bytes are done. A backslash keeps the `$` that
it stands before. -/
def replaceVariables (value : Text → Text) : Nat → Text → Text
  | _, [] => []
  | skip + 1, _ :: rest => replaceVariables value skip rest
  | 0, b :: rest =>
    if b == '\\' && rest.head? == some ('$' : UInt8) then
      let n := (variableAt (rest.drop 1)).2 + 1
      rest.take n ++ replaceVariables value n rest
    else if b == '$' then
      let (name, n) := variableAt rest
      (if name.isEmpty then b :: rest.take n else value name) ++ replaceVariables value n rest
    else b :: replaceVariables value 0 rest

/-- The value that stands for itself or in quotes. -/
def valueOf (value : Text → Text) (t : Text) : Text :=
  let isIn (quote : UInt8) : Bool :=
    2 ≤ t.length && t.head? == some quote && t.getLast? == some quote
  let inner := (t.drop 1).dropLast
  if isIn '\'' then inner
  else if isIn '"' then
    let t := Text.replaceAll "\\r" "\r" (Text.replaceAll "\\n" "\n" inner)
    replaceVariables value 0 (unescape t)
  else replaceVariables value 0 t

/-- The variables that assignments give, after those of `done`. -/
def assign? (given? : Text → Option Text) :
    List (Text × Text) → List Text → Option (List (Text × Text))
  | done, [] => some done
  | done, line :: lines => do
    let (name, value) ← split? line
    let lookup (name : Text) : Text :=
      ((given? name).or (done.reverse.lookup name)).getD []
    assign? given? (done ++ [(name, valueOf lookup value)]) lines

/-- The variables of a text; `given?` gives those of the environment. -/
def read? (given? : Text → Option Text) (source : Text) : Option (List (Text × Text)) := do
  let lines := linesOf (decode source)
  if lines.any (maxLine < ·.length) then none
  else assign? given? [] (← assignments? (lines.length + 1) lines)

end LiteralAudit.Dotenv
