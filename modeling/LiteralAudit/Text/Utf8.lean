import LiteralAudit.Text.Basic

/-!
# Reading characters out of bytes

`Text.runes` reads a text as UTF-8. A byte that starts no well-formed character is read alone, as
U+FFFD of width 1, so every text can be read and the widths add up to its length; a text is valid
UTF-8 exactly when no rune is such a stray byte (`Text.isUtf8`).
-/

namespace LiteralAudit

/-- A character as read from bytes, and how many bytes it took. -/
structure Rune where
  char : Char
  width : Nat
  deriving Repr, DecidableEq, BEq, Inhabited

namespace Rune

/-- The character that stands for a byte that starts no well-formed character. -/
def replacement : Char := '\uFFFD'

/-- A byte that starts no well-formed character. -/
def stray : Rune := ⟨replacement, 1⟩

/-- A rune that was read from a byte that starts no well-formed character. -/
def isStray (r : Rune) : Bool := r.width == 1 && r.char == replacement

/-- A continuation byte's six bits, when the byte lies in the range given. -/
def tail? (lo hi : UInt8) (b : UInt8) : Option Nat :=
  if lo ≤ b && b ≤ hi then some (b.toNat % 64) else none

/-- The rune that starts at byte `b`, with `rest` behind it. -/
def first (b : UInt8) (rest : Text) : Rune :=
  if b < 0x80 then ⟨Char.ofNat b.toNat, 1⟩
  else if b < 0xC2 then stray
  else if b < 0xE0 then
    match rest with
    | c :: _ =>
      match tail? 0x80 0xBF c with
      | some x => ⟨Char.ofNat ((b.toNat - 0xC0) * 64 + x), 2⟩
      | none => stray
    | _ => stray
  else if b < 0xF0 then
    match rest with
    | c :: d :: _ =>
      match tail? (if b == 0xE0 then 0xA0 else 0x80) (if b == 0xED then 0x9F else 0xBF) c,
          tail? 0x80 0xBF d with
      | some x, some y => ⟨Char.ofNat (((b.toNat - 0xE0) * 64 + x) * 64 + y), 3⟩
      | _, _ => stray
    | _ => stray
  else if b < 0xF5 then
    match rest with
    | c :: d :: e :: _ =>
      match tail? (if b == 0xF0 then 0x90 else 0x80) (if b == 0xF4 then 0x8F else 0xBF) c,
          tail? 0x80 0xBF d, tail? 0x80 0xBF e with
      | some x, some y, some z =>
        ⟨Char.ofNat ((((b.toNat - 0xF0) * 64 + x) * 64 + y) * 64 + z), 4⟩
      | _, _, _ => stray
    | _ => stray
  else stray

/-- How many bytes of `rest` go on with a character that byte `b` starts, none of which completes it. -/
def begun (b : UInt8) (rest : Text) : Nat :=
  let lo : UInt8 := if b == 0xE0 then 0xA0 else if b == 0xF0 then 0x90 else 0x80
  let hi : UInt8 := if b == 0xED then 0x9F else if b == 0xF4 then 0x8F else 0xBF
  let most := if b < 0xC2 || 0xF5 ≤ b then 0 else if b < 0xE0 then 1 else if b < 0xF0 then 2 else 3
  match rest.take most with
  | c :: cs =>
    if lo ≤ c && c ≤ hi then 1 + (cs.takeWhile fun (d : UInt8) => 0x80 ≤ d && d ≤ 0xBF).length else 0
  | [] => 0

end Rune

namespace Text

/-- Auxiliary to `runes`: the first `skip` bytes belong to a rune already read. -/
def runesFrom : Nat → Text → List Rune
  | _, [] => []
  | skip + 1, _ :: rest => runesFrom skip rest
  | 0, b :: rest => Rune.first b rest :: runesFrom ((Rune.first b rest).width - 1) rest

/-- The runes of a text, from left to right. -/
def runes (t : Text) : List Rune := runesFrom 0 t

/-- The characters of a text, with U+FFFD for each stray byte. -/
def chars (t : Text) : List Char := t.runes.map (·.char)

/-- Whether the text is valid UTF-8. -/
def isUtf8 (t : Text) : Bool := t.runes.all (!·.isStray)

/-- Auxiliary to `toUtf8`: the first `skip` bytes belong to what has been read. -/
def toUtf8From : Nat → Text → Text
  | _, [] => []
  | skip + 1, _ :: rest => toUtf8From skip rest
  | 0, b :: rest =>
    let r := Rune.first b rest
    ofChar r.char ++ toUtf8From (if r.isStray then Rune.begun b rest else r.width - 1) rest

/-- The text with U+FFFD for every stray byte, together with what goes on with the character that the
byte starts. -/
def toUtf8 (t : Text) : Text := toUtf8From 0 t

/-- The number of characters, a stray byte counting as one. -/
def runeCount (t : Text) : Nat := t.runes.length

/-- The text as a string, with U+FFFD for each stray byte. -/
def toString (t : Text) : String := String.ofList t.chars

end Text

end LiteralAudit
