import LiteralAudit.Number.Integer
import LiteralAudit.Text.Utf8

/-!
# Durations

A duration is a 64-bit number of nanoseconds, written as numbers with units: `1h2m3.5s`, `250ms`.
`Duration.read` reads one and `Duration.text` writes one.
-/

namespace LiteralAudit

/-- A length of time in nanoseconds. -/
structure Duration where
  nanos : Int
  deriving Repr, DecidableEq, Inhabited

namespace Duration

inductive Fault where
  | invalid (text : Text)
  | missingUnit (text : Text)
  | unknownUnit (unit text : Text)
  deriving Repr, DecidableEq

/-- A text between double quotes, the bytes beyond ASCII and the control bytes written by digits. -/
def quoted (t : Text) : Text :=
  "\"" ++ (t.flatMap fun (b : UInt8) =>
    if b ≥ 0x80 || b < 0x20 then ("\\x" ++ Text.hex 2 b.toNat : Text)
    else if b == '"' || b == '\\' then ['\\', b]
    else [b] : Text) ++ "\""

def Fault.message : Fault → Text
  | invalid text => "time: invalid duration " ++ quoted text
  | missingUnit text => "time: missing unit in duration " ++ quoted text
  | unknownUnit unit text => "time: unknown unit " ++ quoted unit ++ " in duration " ++ quoted text

def nanosecond : Nat := 1
def microsecond : Nat := 1000
def millisecond : Nat := 1000 * microsecond
def second : Nat := 1000 * millisecond
def minute : Nat := 60 * second
def hour : Nat := 60 * minute

/-- The nanoseconds of a unit, by its name. -/
def unit? (name : Text) : Option Nat :=
  ([("ns", nanosecond), ("us", microsecond), ("µs", microsecond), ("μs", microsecond),
    ("ms", millisecond), ("s", second), ("m", minute), ("h", hour)].find?
      (fun u => Text.ofString u.1 == name)).map (·.2)

/-! ## Reading -/

/-- What the sums of a duration may not pass: `2 ^ 63`. -/
def limit : Nat := 9223372036854775808

/-- The digits behind a point as a numerator and a power of ten. Digits beyond 63 bits are dropped. -/
def fraction (digits : Text) : Nat × Float :=
  let step : (Nat × Float × Bool) → UInt8 → Nat × Float × Bool := fun (x, scale, full) b =>
    let y := 10 * x + (b.toNat - 48)
    if full || (limit - 1) / 10 < x || limit < y then (x, scale, true) else (y, scale * 10, false)
  let (x, scale, _) := digits.foldl step (0, 1, false)
  (x, scale)

/-- One number with its unit, in nanoseconds, and what follows it. -/
def readPart (whole t : Text) : Except Fault (Nat × Text) :=
  let digits := t.takeWhile Text.isDigit
  let rest := t.drop digits.length
  let pointed := rest.head? == some ('.' : UInt8)
  let decimals := if pointed then (rest.drop 1).takeWhile Text.isDigit else []
  let rest := if pointed then rest.drop (1 + decimals.length) else rest
  let name := rest.takeWhile fun (b : UInt8) => !(b == '.' || Text.isDigit b)
  let n := (Number.readDigits? 10 digits).getD 0
  if (digits.isEmpty && decimals.isEmpty) || limit < n then .error (.invalid whole)
  else if name.isEmpty then .error (.missingUnit whole)
  else match unit? name with
    | none => .error (.unknownUnit name whole)
    | some unit =>
      let (x, scale) := fraction decimals
      let extra := if x == 0 then 0 else (x.toFloat * (unit.toFloat / scale)).toUInt64.toNat
      let n := n * unit + extra
      if limit < n then .error (.invalid whole) else .ok (n, rest.drop name.length)

/-- The sum of the parts of a duration. -/
def readParts (whole : Text) : Nat → Nat → Text → Except Fault Nat
  | 0, _, _ => .error (.invalid whole)
  | fuel + 1, sum, t =>
    if t.isEmpty then .ok sum
    else match readPart whole t with
      | .error e => .error e
      | .ok (n, rest) =>
        if limit < sum + n then .error (.invalid whole) else readParts whole fuel (sum + n) rest

/-- The duration that a text writes. Only `0` needs no unit. -/
def read (t : Text) : Except Fault Duration :=
  let (negative, body) := Number.splitSign t
  if body == "0" then .ok ⟨0⟩
  else if body.isEmpty then .error (.invalid t)
  else match readParts t (body.length + 1) 0 body with
    | .error e => .error e
    | .ok n =>
      if negative then .ok ⟨-n⟩ else if n == limit then .error (.invalid t) else .ok ⟨n⟩

/-! ## Writing -/

/-- A number of units with the rest behind a point. -/
def decimal (n unit : Nat) : Text :=
  let digits := Text.ofNat (unit + n % unit)
  let decimals := Text.trimEnd (· == '0') (digits.drop 1)
  Text.ofNat (n / unit) ++ (if decimals.isEmpty then [] else "." ++ decimals : Text)

/-- A duration with the units that it needs: hours, minutes and seconds, or one smaller unit. -/
def text (d : Duration) : Text :=
  let n := d.nanos.natAbs
  let sign : Text := if d.nanos < 0 then "-" else []
  if n == 0 then "0s"
  else if n < microsecond then sign ++ Text.ofNat n ++ "ns"
  else if n < millisecond then sign ++ decimal n microsecond ++ "µs"
  else if n < second then sign ++ decimal n millisecond ++ "ms"
  else
    let hours : Text := if n < hour then [] else Text.ofNat (n / hour) ++ "h"
    let minutes : Text := if n < minute then [] else Text.ofNat (n / minute % 60) ++ "m"
    sign ++ hours ++ minutes ++ decimal (n % minute) second ++ "s"

end Duration

end LiteralAudit
