import LiteralAudit.Text.Utf8
import LiteralAudit.Unicode.Category

/-!
# Quoted text

`Text.quoted` writes a text between double quotes so that it fits one line and can be read back:
printable characters stand for themselves, the rest is escaped, and a stray byte is written by its
two hexadecimal digits. `Text.unquote?` reads such a text back, and raw strings between backquotes.
-/

namespace LiteralAudit.Text

/-- One rune inside quotes; `b` is its first byte. -/
def quoteRune (b : UInt8) (r : Rune) : Text :=
  let c := r.char
  if r.isStray then "\\x" ++ hex 2 b.toNat
  else if c == '"' || c == '\\' then ['\\', b]
  else if Unicode.isPrintable c then ofChar c
  else match c.toNat with
    | 7 => "\\a"
    | 8 => "\\b"
    | 9 => "\\t"
    | 10 => "\\n"
    | 11 => "\\v"
    | 12 => "\\f"
    | 13 => "\\r"
    | n =>
      if n < 0x20 || n == 0x7F then "\\x" ++ hex 2 n
      else if n < 0x10000 then "\\u" ++ hex 4 n
      else "\\U" ++ hex 8 n

/-- Auxiliary to `quoted`: the first `skip` bytes belong to a rune already written. -/
def quoteFrom : Nat → Text → Text
  | _, [] => []
  | skip + 1, _ :: rest => quoteFrom skip rest
  | 0, b :: rest =>
    let r := Rune.first b rest
    quoteRune b r ++ quoteFrom (r.width - 1) rest

/-- The text between double quotes, escaped. -/
def quoted (t : Text) : Text := "\"" ++ quoteFrom 0 t ++ "\""

/-- The text between backquotes, or between double quotes if backquotes cannot hold it. -/
def backquoted (t : Text) : Text :=
  let fits (r : Rune) : Bool :=
    let n := r.char.toNat
    !r.isStray && (0x20 ≤ n || n == 9) && n != 0x60 && n != 0x7F && n != 0xFEFF
  if t.runes.all fits then [0x60] ++ t ++ [0x60] else quoted t

/-- The number that hexadecimal digits of either case write. -/
def hexNumber? (t : Text) : Option Nat :=
  t.foldl (fun n? b =>
    match n?, hexValue? b with
    | some n, some d => some (16 * n + d)
    | _, _ => none) (some 0)

/-- The bytes that the escape after a backslash stands for, and what follows it. -/
def unescape? (b : UInt8) (rest : Text) : Option (Text × Text) :=
  let simple (n : UInt8) : Option (Text × Text) := some ([n], rest)
  let codePoint (width : Nat) : Option (Text × Text) :=
    if rest.length < width then none
    else match hexNumber? (rest.take width) with
      | some n => if n.isValidChar then some (ofChar (Char.ofNat n), rest.drop width) else none
      | none => none
  if b == 'a' then simple 7
  else if b == 'b' then simple 8
  else if b == 'f' then simple 12
  else if b == 'n' then simple 10
  else if b == 'r' then simple 13
  else if b == 't' then simple 9
  else if b == 'v' then simple 11
  else if b == '\\' then simple '\\'
  else if b == '"' then simple '"'
  else if b == 'x' then
    if rest.length < 2 then none
    else (hexNumber? (rest.take 2)).map fun n => ([UInt8.ofNat n], rest.drop 2)
  else if b == 'u' then codePoint 4
  else if b == 'U' then codePoint 8
  else if '0' ≤ b && b ≤ '7' then
    match rest with
    | c :: d :: rest =>
      if '0' ≤ c && c ≤ '7' && '0' ≤ d && d ≤ '7' then
        let n := 64 * (b.toNat - 48) + 8 * (c.toNat - 48) + (d.toNat - 48)
        if n < 256 then some ([UInt8.ofNat n], rest) else none
      else none
    | _ => none
  else none

/-- Auxiliary to `unquote?`: the inside of double quotes, `done` being its value so far in reverse. -/
def unquoteFrom : Nat → Text → Text → Option Text
  | 0, _, _ => none
  | fuel + 1, done, t =>
    match t with
    | [] => some done.reverse
    | b :: rest =>
      if b == '"' || b == '\n' then none
      else if b == '\\' then
        match rest with
        | [] => none
        | e :: rest =>
          match unescape? e rest with
          | some (value, rest) => unquoteFrom fuel (value.reverse ++ done) rest
          | none => none
      else unquoteFrom fuel (b :: done) rest

/-- The text between double quotes, with its escapes replaced, or between backquotes, as it is. -/
def unquote? (t : Text) : Option Text :=
  match t with
  | [] | [_] => none
  | q :: body =>
    if body.getLast? != some q then none
    else
      let inner := body.dropLast
      if q == '"' then unquoteFrom (inner.length + 1) [] inner
      else if q.toNat == 0x60 then
        if inner.contains q then none else some (inner.filter (· != '\r'))
      else none

end LiteralAudit.Text
