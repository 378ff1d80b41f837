import LiteralAudit.Text.Basic

/-!
# Integers of 64 bits

Counts and line numbers are signed 64-bit integers: arithmetic on them wraps (`wrap64`) and a text
that denotes a greater number is no integer. `readDecimal?` reads decimal digits with an optional
sign; `readLiteral?` also takes the base from a prefix, as integer literals of programs do.
-/

namespace LiteralAudit.Number

def maxInt64 : Int := 9223372036854775807

def minInt64 : Int := -9223372036854775808

/-- The 64-bit integer that an integer wraps to. -/
def wrap64 (i : Int) : Int := i.bmod 18446744073709551616

def fits64 (i : Int) : Bool := minInt64 ≤ i && i ≤ maxInt64

/-- The value of a digit or letter: `a` and `A` are ten. -/
def digitValue? (b : UInt8) : Option Nat :=
  if Text.isDigit b then some (b.toNat - 48)
  else if Text.isLower b then some (b.toNat - 87)
  else if Text.isUpper b then some (b.toNat - 55)
  else none

/-- The number that digits of a base write; `none` when one of them is no digit of the base. -/
def readDigits? (base : Nat) (t : Text) : Option Nat :=
  t.foldl (fun n? b =>
    match n?, digitValue? b with
    | some n, some d => if d < base then some (n * base + d) else none
    | _, _ => none) (some 0)

/-- The sign and what follows it. -/
def splitSign (t : Text) : Bool × Text :=
  match t with
  | b :: rest => if b == '-' then (true, rest) else if b == '+' then (false, rest) else (false, t)
  | [] => (false, [])

/-- A signed number, when it fits 64 bits. -/
def signed? (negative : Bool) (n : Nat) : Option Int :=
  let i : Int := if negative then -n else n
  if fits64 i then some i else none

/-- A decimal integer with an optional sign. -/
def readDecimal? (t : Text) : Option Int :=
  let (negative, digits) := splitSign t
  if digits.isEmpty then none
  else (readDigits? 10 digits).bind (signed? negative)

/-- The base that a literal's prefix selects, and the digits behind the prefix. -/
def splitBase (t : Text) : Nat × Text :=
  match t with
  | z :: x :: d :: rest =>
    if z == '0' then
      if x == 'b' || x == 'B' then (2, d :: rest)
      else if x == 'o' || x == 'O' then (8, d :: rest)
      else if x == 'x' || x == 'X' then (16, d :: rest)
      else (8, x :: d :: rest)
    else (10, t)
  | z :: rest => if z == '0' then (8, rest) else (10, t)
  | [] => (10, [])

/-- Auxiliary to `underscoresSeparate`: `last` is what the byte before was, a digit, an underscore or
neither. -/
def underscoresFrom (hex : Bool) : Option Bool → Text → Bool
  | last, [] => last != some false
  | last, b :: rest =>
    if b == '_' then last == some true && underscoresFrom hex (some false) rest
    else if Text.isDigit b || hex && (Text.hexValue? b).isSome then underscoresFrom hex (some true) rest
    else last != some false && underscoresFrom hex none rest

/-- Whether every underscore of an unsigned literal stands between two digits, a base prefix counting
as a digit. -/
def underscoresSeparate (t : Text) : Bool :=
  match t with
  | z :: x :: rest =>
    let base := x == 'b' || x == 'B' || x == 'o' || x == 'O' || x == 'x' || x == 'X'
    if z == '0' && base then underscoresFrom (x == 'x' || x == 'X') (some true) rest
    else underscoresFrom false none t
  | _ => underscoresFrom false none t

/-- The number that an integer literal writes: an optional sign, an optional base prefix (`0b`, `0o`,
`0x`, or `0` for octal) and digits, which underscores may separate. -/
def literalValue? (t : Text) : Option Int :=
  let (negative, body) := splitSign t
  if body.isEmpty then none
  else
    let (base, digits) := splitBase body
    match readDigits? base (digits.filter (· != '_')) with
    | none => none
    | some n =>
      if digits.any (· == '_') && !underscoresSeparate body then none
      else some (if negative then -n else n)

/-- An integer literal that fits 64 bits. -/
def readLiteral? (t : Text) : Option Int := (literalValue? t).filter fits64

end LiteralAudit.Number
