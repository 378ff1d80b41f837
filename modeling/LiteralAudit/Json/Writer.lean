import LiteralAudit.Json.Basic
import LiteralAudit.Text.Utf8
import LiteralAudit.Number.Decimal

/-!
# Writing JSON

`Json.compact` writes a value on one line, `Json.pretty` with one item or field a line, indented by
two blanks a level. Strings are written so that they can stand inside HTML: `<`, `>`, `&` and the
two Unicode line separators are escaped, and a stray byte is written as the escape of U+FFFD.
-/

namespace LiteralAudit.Json

/-- How strings are written: whether `<`, `>` and `&` are escaped. -/
structure Escaping where
  html : Bool := true

/-- One rune inside a string; `b` is its first byte. -/
def writeRune (e : Escaping) (b : UInt8) (r : Rune) : Text :=
  let c := r.char
  if r.isStray then "\\ufffd"
  else match c with
    | '"' => "\\\""
    | '\\' => "\\\\"
    | '\n' => "\\n"
    | '\r' => "\\r"
    | '\t' => "\\t"
    | c =>
      let n := c.toNat
      if n == 8 then "\\b"
      else if n == 12 then "\\f"
      else if n < 0x20 || n == 0x2028 || n == 0x2029 ||
          (e.html && (c == '<' || c == '>' || c == '&')) then "\\u" ++ Text.hex 4 n
      else if n < 0x80 then [b]
      else Text.ofChar c

/-- Auxiliary to `writeString`: the first `skip` bytes belong to a rune already written. -/
def writeStringFrom (e : Escaping) : Nat → Text → Text
  | _, [] => []
  | skip + 1, _ :: rest => writeStringFrom e skip rest
  | 0, b :: rest =>
    let r := Rune.first b rest
    writeRune e b r ++ writeStringFrom e (r.width - 1) rest

/-- A string between quotes. -/
def writeString (e : Escaping) (t : Text) : Text := "\"" ++ writeStringFrom e 0 t ++ "\""

/-- A double: the fewest digits that read back, with an exponent below `1e-6` and from `1e21` on.
JSON has no text for a number that is not finite. -/
def ofFloat? (x : Float) : Option Json :=
  if (Number.notFinite? x).isSome then none
  else
    let d := (Number.Binary.ofBits x.toBits).shortest
    some (.number
      (if !d.digits.isEmpty && (d.point < -5 || 22 ≤ d.point) then d.scientific 1 else d.plain))

/-- A finite double. -/
def ofFloat (x : Float) : Json := (ofFloat? x).getD .null

mutual

def writeCompact (e : Escaping) : Json → Text
  | .null => "null"
  | .bool b => if b then "true" else "false"
  | .number t => t
  | .string t => writeString e t
  | .array xs => "[" ++ writeCompactItems e true xs ++ "]"
  | .object fs => "\x7b" ++ writeCompactFields e true fs ++ "\x7d"

def writeCompactItems (e : Escaping) (first : Bool) : List Json → Text
  | [] => []
  | v :: rest => (if first then [] else "," : Text) ++ writeCompact e v ++ writeCompactItems e false rest

def writeCompactFields (e : Escaping) (first : Bool) : List (Text × Json) → Text
  | [] => []
  | (k, v) :: rest =>
    (if first then [] else "," : Text) ++ writeString e k ++ ":" ++ writeCompact e v ++
      writeCompactFields e false rest

end

/-- A line break and the indentation of a level. -/
def newLine (level : Nat) : Text := "\n" ++ List.replicate (2 * level) (' ' : UInt8)

mutual

def writePretty (e : Escaping) (level : Nat) : Json → Text
  | .null => "null"
  | .bool b => if b then "true" else "false"
  | .number t => t
  | .string t => writeString e t
  | .array [] => "[]"
  | .array (v :: rest) =>
    "[" ++ newLine (level + 1) ++ writePretty e (level + 1) v ++
      writePrettyItems e (level + 1) rest ++ newLine level ++ "]"
  | .object [] => "\x7b\x7d"
  | .object ((k, v) :: rest) =>
    "\x7b" ++ newLine (level + 1) ++ writeString e k ++ ": " ++ writePretty e (level + 1) v ++
      writePrettyFields e (level + 1) rest ++ newLine level ++ "\x7d"

def writePrettyItems (e : Escaping) (level : Nat) : List Json → Text
  | [] => []
  | v :: rest => "," ++ newLine level ++ writePretty e level v ++ writePrettyItems e level rest

def writePrettyFields (e : Escaping) (level : Nat) : List (Text × Json) → Text
  | [] => []
  | (k, v) :: rest =>
    "," ++ newLine level ++ writeString e k ++ ": " ++ writePretty e level v ++
      writePrettyFields e level rest

end

/-- A value on one line. -/
def compact (j : Json) : Text := writeCompact {} j

/-- A value with one item or field a line. -/
def pretty (j : Json) : Text := writePretty {} 0 j

end LiteralAudit.Json
