import LiteralAudit.Text.Basic

/-!
# Base64

The usual encoding of bytes in sixty-four characters, with padding.
-/

namespace LiteralAudit.Text

/-- The character of a six-bit number. -/
def base64Digit (n : Nat) : UInt8 :=
  if n < 26 then UInt8.ofNat (65 + n)
  else if n < 52 then UInt8.ofNat (71 + n)
  else if n < 62 then UInt8.ofNat (n - 4)
  else if n == 62 then '+' else '/'

/-- The six-bit number of a character. -/
def base64Value? (b : UInt8) : Option Nat :=
  if isUpper b then some (b.toNat - 65)
  else if isLower b then some (b.toNat - 71)
  else if isDigit b then some (b.toNat + 4)
  else if b == '+' then some 62
  else if b == '/' then some 63
  else none

/-- Bytes in Base64, three bytes to four characters. -/
def toBase64 : Text → Text
  | [] => []
  | [a] =>
    let n := a.toNat * 16
    [base64Digit (n / 64), base64Digit (n % 64), '=', '=']
  | [a, b] =>
    let n := (a.toNat * 256 + b.toNat) * 4
    [base64Digit (n / 4096), base64Digit (n / 64 % 64), base64Digit (n % 64), '=']
  | a :: b :: c :: rest =>
    let n := (a.toNat * 256 + b.toNat) * 256 + c.toNat
    base64Digit (n / 262144) :: base64Digit (n / 4096 % 64) :: base64Digit (n / 64 % 64) ::
      base64Digit (n % 64) :: toBase64 rest

/-- The bytes that a padded Base64 text stands for. -/
def ofBase64? : Text → Option Text
  | [] => some []
  | a :: b :: c :: d :: rest => do
    let x ← base64Value? a
    let y ← base64Value? b
    if c == '=' then
      if d == '=' && rest.isEmpty then some [UInt8.ofNat (x * 4 + y / 16)] else none
    else
      let z ← base64Value? c
      if d == '=' then
        if rest.isEmpty then
          some [UInt8.ofNat (x * 4 + y / 16), UInt8.ofNat (y % 16 * 16 + z / 4)]
        else none
      else
        let w ← base64Value? d
        let more ← ofBase64? rest
        some (UInt8.ofNat (x * 4 + y / 16) :: UInt8.ofNat (y % 16 * 16 + z / 4) ::
          UInt8.ofNat (z % 4 * 64 + w) :: more)
  | _ => none

end LiteralAudit.Text
