import LiteralAudit.Number.Integer

/-!
# Decimal text of floating-point numbers

A finite `Float` is `m · 2 ^ e` for integers `m` and `e` (`Binary`). `Binary.shortest` picks the
fewest decimal digits that read back as the same number, the nearest of them; `Binary.fixed` rounds
to a given number of places, a half to the even neighbour. How digits are laid out is the business
of the formats: `plain` writes no exponent, `scientific` always one, and `general` one when the
number is very small or large. `readFloat?` reads decimal text.
-/

namespace LiteralAudit.Number

/-- A finite number `mantissa · 2 ^ exponent`, with the sign apart. -/
structure Binary where
  negative : Bool
  mantissa : Nat
  exponent : Int
  deriving Repr, DecidableEq

/-- The least exponent of a double's mantissa read as an integer. -/
def minExponent : Int := -1074

/-- The leading bit of a double's mantissa, which its bits leave out: `2 ^ 52`. -/
def leadingBit : Nat := 4503599627370496

/-- A finite double as an integer times a power of two. -/
def Binary.ofBits (bits : UInt64) : Binary :=
  let fraction : Nat := bits.toNat % leadingBit
  let biased : Nat := bits.toNat / leadingBit % 2048
  { negative := bits.toNat / (2048 * leadingBit) == 1
    mantissa := if biased == 0 then fraction else fraction + leadingBit
    exponent := if biased == 0 then minExponent else (biased : Int) - 1075 }

/-- Decimal digits `d₁ d₂ … dₙ` with value `0.d₁d₂…dₙ · 10 ^ point`. -/
structure Decimal where
  negative : Bool
  digits : List Nat
  point : Int
  deriving Repr, DecidableEq

/-- The digits of a number; zero has none. -/
def digitsOf (n : Nat) : List Nat :=
  if n == 0 then [] else (Nat.toDigits 10 n).map fun c => c.toNat - 48

/-- Digits without the zeros at their end. -/
def dropTrailingZeros (ds : List Nat) : List Nat := (ds.reverse.dropWhile (· == 0)).reverse

/-- `x · 2 ^ e · 10 ^ -s` as a fraction. -/
def scaled (x : Nat) (e s : Int) : Nat × Nat :=
  (x * Nat.pow 2 e.toNat * Nat.pow 10 (-s).toNat, Nat.pow 2 (-e).toNat * Nat.pow 10 s.toNat)

/-- The multiples of `10 ^ s` next to the number that read back as it: the nearer one of two. The
number lies between `low` and `high`, in quarters of the mantissa's unit, and a border reads back
when the mantissa is even. -/
def nearOnGrid? (b : Binary) (low high : Nat) (s : Int) : Option Nat :=
  let (num, den) := scaled (4 * b.mantissa) (b.exponent - 2) s
  let (lowNum, lowDen) := scaled low (b.exponent - 2) s
  let (highNum, highDen) := scaled high (b.exponent - 2) s
  let even := b.mantissa % 2 == 0
  let inside (d : Nat) : Bool :=
    (if even then lowNum ≤ d * lowDen else lowNum < d * lowDen) &&
    (if even then d * highDen ≤ highNum else d * highDen < highNum)
  let d := num / den
  let upNearer := den < 2 * (num % den) || (den == 2 * (num % den) && d % 2 == 1)
  match inside d && d != 0, inside (d + 1) with
  | true, true => some (if upNearer then d + 1 else d)
  | true, false => some d
  | false, true => some (d + 1)
  | false, false => none

/-- The decimal exponent of the number: `10 ^ (k - 1) ≤ value < 10 ^ k`. -/
def magnitude (b : Binary) : Int :=
  let (num, den) := scaled b.mantissa b.exponent 0
  if den ≤ num then ((Nat.toDigits 10 (num / den)).length : Int)
  else 1 - ((Nat.toDigits 10 ((den + num - 1) / num - 1)).length : Int)

/-- The first of the grids `10 ^ (k - n)`, for growing `n`, that has a number reading back. -/
def firstGrid (b : Binary) (low high : Nat) (k : Int) : Nat → Nat → Decimal
  | 0, _ => ⟨b.negative, [], 0⟩
  | fuel + 1, n =>
    match nearOnGrid? b low high (k - n) with
    | some d =>
      let ds := digitsOf d
      ⟨b.negative, dropTrailingZeros ds, (ds.length : Int) + (k - n)⟩
    | none => firstGrid b low high k fuel (n + 1)

/-- The fewest digits that read back as the number. -/
def Binary.shortest (b : Binary) : Decimal :=
  if b.mantissa == 0 then ⟨b.negative, [], 0⟩
  else
    let low := if b.mantissa == leadingBit && minExponent < b.exponent then 4 * b.mantissa - 1
      else 4 * b.mantissa - 2
    firstGrid b low (4 * b.mantissa + 2) (magnitude b) 20 1

/-- A quotient rounded to the nearest integer, a half to the even one. -/
def roundDiv (num den : Nat) : Nat :=
  let q := num / den
  let r := 2 * (num % den)
  if den < r || (r == den && q % 2 == 1) then q + 1 else q

/-- The number rounded to `places` decimal places, as that many places of an integer. -/
def Binary.fixed (b : Binary) (places : Nat) : Nat :=
  let (num, den) := scaled b.mantissa b.exponent (-places)
  roundDiv num den

/-! ## Layouts -/

def digitBytes (ds : List Nat) : Text := ds.map fun d => UInt8.ofNat (48 + d)

def sign (negative : Bool) : Text := if negative then "-" else []

/-- Digits without an exponent. -/
def Decimal.plain (d : Decimal) : Text :=
  let whole := if d.point ≤ 0 then [0] else
    (d.digits.take d.point.toNat) ++ List.replicate (d.point.toNat - d.digits.length) 0
  let fraction := List.replicate (-d.point).toNat 0 ++ d.digits.drop d.point.toNat
  sign d.negative ++ digitBytes whole ++
    (if d.digits.drop d.point.toNat == [] then [] else "." ++ digitBytes fraction : Text)

/-- Digits with an exponent of at least `width` digits: `1.5e+07`. -/
def Decimal.scientific (width : Nat) (d : Decimal) : Text :=
  let exponent := if d.digits.isEmpty then 0 else d.point - 1
  let digits := Text.ofNat exponent.natAbs
  let (lead, rest) := match d.digits with
    | [] => (0, [])
    | lead :: rest => (lead, rest)
  sign d.negative ++ digitBytes [lead] ++ (if rest.isEmpty then [] else "." ++ digitBytes rest : Text) ++
    (if exponent < 0 then "e-" else "e+" : Text) ++
    List.replicate (width - digits.length) ('0' : UInt8) ++ digits

/-- A number that is not finite. -/
def notFinite? (x : Float) : Option Text :=
  if x.isNaN then some "NaN" else if x.isInf then some (if x < 0 then "-Inf" else "+Inf") else none

/-- The shortest digits, with an exponent for numbers below `1e-4` and from a million on. -/
def general (x : Float) : Text :=
  match notFinite? x with
  | some t => t
  | none =>
    let d := (Binary.ofBits x.toBits).shortest
    if !d.digits.isEmpty && (d.point < -3 || 7 ≤ d.point) then d.scientific 2 else d.plain

/-- The shortest digits without an exponent. -/
def plainShortest (x : Float) : Text :=
  match notFinite? x with
  | some t => t
  | none => (Binary.ofBits x.toBits).shortest.plain

/-- A number with a fixed count of decimal places. -/
def fixedPlaces (places : Nat) (x : Float) : Text :=
  match notFinite? x with
  | some t => t
  | none =>
    let b := Binary.ofBits x.toBits
    let digits := Text.ofNat (b.fixed places)
    let digits := List.replicate (places + 1 - digits.length) ('0' : UInt8) ++ digits
    let whole := digits.take (digits.length - places)
    sign b.negative ++ whole ++
      (if places == 0 then [] else "." ++ digits.drop (digits.length - places) : Text)

/-! ## Reading -/

/-- Decimal digits at the start of a text. -/
def takeDigits (t : Text) : Text × Text := (t.takeWhile Text.isDigit, t.dropWhile Text.isDigit)

/-- The double nearest to `n · 10 ^ e`. -/
def ofDecimal (n : Nat) (e : Int) : Float :=
  let size : Int := (Nat.toDigits 10 n).length
  if n == 0 || size + e < -400 then 0.0
  else if size + e > 400 then Float.ofBits 0x7FF0000000000000
  else Float.ofScientific n (e < 0) e.natAbs

/-- A decimal number without sign: digits, optionally a point, optionally an exponent. -/
def readUnsigned? (t : Text) : Option Float :=
  let (whole, t) := takeDigits t
  let (fraction, t) := match t with
    | p :: rest => if p == '.' then takeDigits rest else ([], t)
    | [] => ([], [])
  if whole.isEmpty && fraction.isEmpty then none
  else
    let exponent? : Option Int := match t with
      | [] => some 0
      | e :: rest =>
        if e == 'e' || e == 'E' then
          let (negative, digits) := splitSign rest
          if digits.isEmpty then none
          else (readDigits? 10 digits).map fun n =>
            let n := min n 100000
            if negative then -n else n
        else none
    match exponent?, readDigits? 10 (whole ++ fraction) with
    | some e, some n => some (ofDecimal n (e - fraction.length))
    | _, _ => none

/-- A decimal number with an optional sign. -/
def readFloat? (t : Text) : Option Float :=
  let (negative, body) := splitSign t
  (readUnsigned? body).map fun x => if negative then -x else x

end LiteralAudit.Number

/-!
## Numbers as people write them

`readReal?` reads everything that denotes a double: decimal and hexadecimal numbers, digits separated
by underscores, infinities and NaN. A number too great for a double denotes none.
-/

namespace LiteralAudit.Number

def infinity : Float := Float.ofBits 0x7FF0000000000000

def nan : Float := Float.ofBits 0x7FF8000000000001

/-- The integer part; what 64 bits cannot hold becomes the least integer. -/
def truncate64 (x : Float) : Int :=
  if x.isNaN || x ≥ 9223372036854775808.0 || x < -9223372036854775808.0 then minInt64
  else x.toInt64.toInt

/-- The names of numbers that are not finite, in either letter case. -/
def named? (t : Text) : Option Float :=
  let (negative, body) := splitSign t
  let body := Text.asciiLower body
  if body == "inf" || body == "infinity" then some (if negative then -infinity else infinity)
  else if body == "nan" && body.length == t.length then some nan
  else none

/-- The integer nearest to `n · 2 ^ e`, a half to the even one. -/
def shiftRound (n : Nat) (e : Int) : Nat :=
  if e ≥ 0 then n * Nat.pow 2 e.toNat else roundDiv n (Nat.pow 2 (-e).toNat)

/-- The double nearest to `n · 2 ^ e`. -/
def ofBinary (n : Nat) (e : Int) : Float :=
  if n == 0 then 0.0
  else
    let top : Int := (n.log2 : Int) + e
    let least := max (top - 52) minExponent
    if top > 1100 then infinity
    else
      let m := shiftRound n (e - least)
      let (m, least) := if m == 2 * leadingBit then (leadingBit, least + 1) else (m, least)
      if least > 971 then infinity
      else
        let biased : Nat := if m < leadingBit then 0 else (least + 1075).toNat
        Float.ofBits (UInt64.ofNat (biased * leadingBit + m % leadingBit))

/-- A hexadecimal number behind its `0x`: digits, optionally a point, and a binary exponent. -/
def readHexReal? (t : Text) : Option Float :=
  let isHex (b : UInt8) : Bool := (Text.hexValue? b).isSome
  let whole := t.takeWhile isHex
  let rest := t.drop whole.length
  let (fraction, rest) := match rest with
    | p :: after =>
      if p == '.' then (after.takeWhile isHex, after.dropWhile isHex) else ([], rest)
    | [] => ([], [])
  match rest with
  | p :: exponent =>
    let (negative, digits) := splitSign exponent
    if (whole.isEmpty && fraction.isEmpty) || !(p == 'p' || p == 'P') || digits.isEmpty then none
    else match readDigits? 10 digits, readDigits? 16 (whole ++ fraction) with
      | some e, some n =>
        let e : Int := min e 100000
        some (ofBinary n ((if negative then -e else e) - 4 * fraction.length))
      | _, _ => none
  | [] => none

/-- A finite number without sign. -/
def readFinite? (t : Text) : Option Float :=
  match t with
  | z :: x :: rest =>
    if z == '0' && (x == 'x' || x == 'X') && !rest.isEmpty then readHexReal? rest
    else readUnsigned? t
  | _ => readUnsigned? t

/-- What a text writes as a number: a double, where one too great for any is an infinity. -/
def realValue? (t : Text) : Option Float :=
  let (negative, body) := splitSign t
  if body.contains '_' && !underscoresSeparate body then none
  else (readFinite? (body.filter (· != '_'))).map fun x => if negative then -x else x

/-- A number; none when the text writes none, or one that no double comes near. -/
def readReal? (t : Text) : Option Float := (named? t).or ((realValue? t).filter fun x => !x.isInf)

end LiteralAudit.Number
