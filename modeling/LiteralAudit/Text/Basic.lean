/-!
# Texts as bytes

Source files, file names and everything quoted from them are sequences of bytes: nothing promises
that they are valid UTF-8, and a value cut out of a file keeps the bytes it had there. A `Text` is
the list of those bytes. String literals coerce to the bytes of their UTF-8 form and ASCII
characters to their byte, so the rest of the library writes `"abc"` and `'a'` for both.

Searching (`indexOf?`, `includes`), cutting (`splitOn`, `cut`, `lines`) and trimming work on bytes.
-/

namespace LiteralAudit

/-- A text, as the bytes that spell it. -/
abbrev Text := List UInt8

/-- An ASCII character as its byte. -/
instance charByte : Coe Char UInt8 := ⟨Char.toUInt8⟩

namespace Text

/-- The UTF-8 bytes of a string. -/
def ofString (s : String) : Text := s.toUTF8.data.toList

instance stringText : Coe String Text := ⟨ofString⟩

/-- Whether all bytes of a text are such is decided on the text, not on all the bytes that there are. -/
instance (priority := high) decidableForallMem (p : UInt8 → Prop) [DecidablePred p] (t : Text) :
    Decidable (∀ b ∈ t, p b) := List.decidableBAll p t

/-- The UTF-8 bytes of a list of characters. -/
def ofChars (cs : List Char) : Text := cs.flatMap String.utf8EncodeChar

/-- The UTF-8 bytes of one character. -/
def ofChar (c : Char) : Text := String.utf8EncodeChar c

/-- A number in decimal. -/
def ofNat (n : Nat) : Text := ofString (toString n)

/-- An integer in decimal, with a minus sign when it is negative. -/
def ofInt : Int → Text
  | .ofNat n => ofNat n
  | .negSucc n => '-' :: ofNat (n + 1)

/-- `n` copies of a text. -/
def times (n : Nat) (t : Text) : Text := (List.replicate n t).flatten

/-- The parts with a separator between neighbours. -/
def join (sep : Text) : List Text → Text
  | [] => []
  | part :: parts => part ++ parts.flatMap (sep ++ ·)

/-- What follows `front`, when the text starts with it. -/
def dropFront? (front t : Text) : Option Text :=
  match front, t with
  | [], t => some t
  | _ :: _, [] => none
  | a :: front, b :: t => if a == b then dropFront? front t else none

/-- The text without `front`, when it starts with it, and as it is otherwise. -/
def dropFront (front t : Text) : Text := (dropFront? front t).getD t

def startsWith (t front : Text) : Bool := (dropFront? front t).isSome

def endsWith (t back : Text) : Bool := back.isSuffixOf t

/-- The text without `back`, when it ends with it, and as it is otherwise. -/
def dropBack (back t : Text) : Text :=
  if t.endsWith back then t.take (t.length - back.length) else t

/-- Auxiliary to `indexOf?`: `i` bytes were passed already. -/
def indexFrom? (needle : Text) (i : Nat) : Text → Option Nat
  | [] => if needle.isEmpty then some i else none
  | b :: rest => if startsWith (b :: rest) needle then some i else indexFrom? needle (i + 1) rest

/-- Where `needle` first occurs, as the number of bytes before it. -/
def indexOf? (t needle : Text) : Option Nat := indexFrom? needle 0 t

def includes (t needle : Text) : Bool := (indexOf? t needle).isSome

/-- Where a byte first occurs. -/
def indexOfByte? (t : Text) (b : UInt8) : Option Nat := t.findIdx? (· == b)

/-- Where a byte last occurs. -/
def lastIndexOfByte? (t : Text) (b : UInt8) : Option Nat :=
  (t.reverse.findIdx? (· == b)).map fun k => t.length - 1 - k

/-- What stands before and after the first occurrence of a byte. -/
def cutByte? (t : Text) (b : UInt8) : Option (Text × Text) :=
  (indexOfByte? t b).map fun i => (t.take i, t.drop (i + 1))

/-- What stands before and after the first occurrence of `sep`. -/
def cut? (t sep : Text) : Option (Text × Text) :=
  (indexOf? t sep).map fun i => (t.take i, t.drop (i + sep.length))

/-- The parts between the occurrences of a byte; a text without one is its own only part. -/
def splitOn (sep : UInt8) (t : Text) : List Text :=
  let step : List Text × Text → UInt8 → List Text × Text := fun (done, part) b =>
    if b == sep then (part.reverse :: done, []) else (done, b :: part)
  let (done, last) := t.foldl step ([], [])
  (last.reverse :: done).reverse

/-- Auxiliary to `replaceAll`: `skip` bytes belong to the occurrence just replaced. -/
def replaceFrom (old new : Text) : Nat → Text → Text
  | _, [] => []
  | skip + 1, _ :: rest => replaceFrom old new skip rest
  | 0, b :: rest =>
    if startsWith (b :: rest) old then new ++ replaceFrom old new (old.length - 1) rest
    else b :: replaceFrom old new 0 rest

/-- Every occurrence of `old`, from the left and without overlaps, replaced by `new`. An empty
`old` occurs nowhere. -/
def replaceAll (old new t : Text) : Text :=
  if old.isEmpty then t else replaceFrom old new 0 t

/-- Auxiliary to `splitOnText`: the bytes of the current part in reverse. -/
def splitOnTextFrom (sep : Text) : Nat → Text → Text → List Text
  | _, part, [] => [part.reverse]
  | skip + 1, part, _ :: rest => splitOnTextFrom sep skip part rest
  | 0, part, b :: rest =>
    if startsWith (b :: rest) sep then
      part.reverse :: splitOnTextFrom sep (sep.length - 1) [] rest
    else splitOnTextFrom sep 0 (b :: part) rest

/-- The parts between the occurrences of a non-empty separator. -/
def splitOnText (sep t : Text) : List Text := splitOnTextFrom sep 0 [] t

/-- The text without the bytes at its end that satisfy `p`. -/
def trimEnd (p : UInt8 → Bool) (t : Text) : Text := (t.reverse.dropWhile p).reverse

/-- The text without the bytes at either end that satisfy `p`. -/
def trimBytes (p : UInt8 → Bool) (t : Text) : Text := trimEnd p (t.dropWhile p)

/-- How two texts compare in byte order; a proper beginning comes first. -/
def cmp : Text → Text → Ordering
  | [], [] => .eq
  | [], _ :: _ => .lt
  | _ :: _, [] => .gt
  | a :: s, b :: t => if a < b then .lt else if b < a then .gt else cmp s t

/-- Byte order as a test, for sorting. -/
def le (a b : Text) : Bool := cmp a b != .gt

/-- The texts in byte order. -/
def sort (ts : List Text) : List Text := ts.mergeSort le

def isDigit (b : UInt8) : Bool := '0' ≤ b && b ≤ '9'

def isLower (b : UInt8) : Bool := 'a' ≤ b && b ≤ 'z'

def isUpper (b : UInt8) : Bool := 'A' ≤ b && b ≤ 'Z'

def isAlpha (b : UInt8) : Bool := isLower b || isUpper b

/-- The value of a hexadecimal digit of either case. -/
def hexValue? (b : UInt8) : Option Nat :=
  if isDigit b then some (b.toNat - 48)
  else if 'a' ≤ b && b ≤ 'f' then some (b.toNat - 87)
  else if 'A' ≤ b && b ≤ 'F' then some (b.toNat - 55)
  else none

/-- A digit of a base up to sixteen, in lower case. -/
def hexDigit (n : Nat) : UInt8 :=
  if n < 10 then UInt8.ofNat (48 + n) else UInt8.ofNat (87 + n)

/-- A number in hexadecimal, in lower case, with at least `width` digits. -/
def hex (width n : Nat) : Text :=
  let digits := (Nat.toDigits 16 n).map Char.toUInt8
  List.replicate (width - digits.length) ('0' : UInt8) ++ digits

/-- ASCII letters in lower case, every other byte as it is. -/
def asciiLower (t : Text) : Text := t.map fun b => if isUpper b then b + 32 else b

end Text

end LiteralAudit

/-!
## Lines of bounded length

Files are read line by line with a bound on the length of a line. `Text.scanLines` gives the lines up
to the first one that reaches the bound, without their line breaks, and says whether there was one.
-/

namespace LiteralAudit.Text

/-- How long a line must be to be refused. -/
def lineLimit : Nat := 4 * 1024 * 1024

/-- A line read in reverse, without a carriage return at its end. -/
def finishLine (line : Text) : Text :=
  match line with
  | b :: rest => if b == '\r' then rest.reverse else line.reverse
  | [] => []

/-- Auxiliary to `scanLines`: `size` bytes of the current line are read, in reverse. -/
def scanLinesFrom (limit : Nat) : List Text → Text → Nat → Text → List Text × Bool
  | done, line, _, [] => ((if line.isEmpty then done else finishLine line :: done).reverse, false)
  | done, line, size, b :: rest =>
    if b == '\n' then scanLinesFrom limit (finishLine line :: done) [] 0 rest
    else if limit ≤ size + 1 then (done.reverse, true)
    else scanLinesFrom limit done (b :: line) (size + 1) rest

/-- The lines of a text before the first one that has `limit` bytes or more, and whether there is
such a line. A line ends at a line feed, and a carriage return before it is dropped. -/
def scanLines (limit : Nat) (t : Text) : List Text × Bool := scanLinesFrom limit [] [] 0 t

/-- Why the line behind those that `scanLines` gives cannot be read. -/
def lineTooLong : Text := "bufio.Scanner: token too long"

end LiteralAudit.Text
