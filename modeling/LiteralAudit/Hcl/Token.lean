import LiteralAudit.Text.Quoted

/-!
# Tokens of HCL

Names, numbers, quoted texts, texts of several lines, and signs. `Token.scan` gives the tokens of a
document in HCL, `Token.scanJson` those of one in JSON, which HCL also reads. The tokens end with
`illegal` where the document has none.
-/

namespace LiteralAudit.Hcl

inductive Token where
  | name (t : Text)
  | bool (b : Bool)
  | null
  | whole (t : Text)
  | decimal (t : Text)
  /-- A quoted text; none if its escapes denote no characters. -/
  | text (t? : Option Text)
  | openList
  | closeList
  | openObject
  | closeObject
  | comma
  | assign
  | colon
  | illegal
  deriving Repr, DecidableEq, Inhabited

/-! ## Characters -/

def isBlank (c : Char) : Bool := c == ' ' || c == '\t' || c == '\n' || c == '\r'

def isLetter (c : Char) : Bool :=
  c.isAlpha || c == '_' || (128 ≤ c.toNat && Unicode.isLetter c)

def isDigit (c : Char) : Bool := c.isDigit || (128 ≤ c.toNat && Unicode.isDecimalDigit c)

def isNamePart (c : Char) : Bool := isLetter c || isDigit c || c == '-' || c == '.'

def isHexDigit (c : Char) : Bool :=
  c.isDigit || ('a' ≤ c && c ≤ 'f') || ('A' ≤ c && c ≤ 'F')

def isOctalDigit (c : Char) : Bool := '0' ≤ c && c ≤ '7'

/-! ## Numbers -/

/-- The exponent at the start of some characters, if there is one. It has digits. -/
def exponent? (s : List Char) : Option (List Char) :=
  match s with
  | e :: rest =>
    if e != 'e' && e != 'E' then some []
    else
      let sign := rest.takeWhile fun c => c == '+' || c == '-'
      let digits := (rest.drop sign.length).takeWhile Char.isDigit
      if 1 < sign.length || digits.isEmpty then none else some (e :: sign ++ digits)
  | [] => some []

/-- Whether digits that start with a zero make no number: one of them, from the third on, is no octal
digit. -/
def isBadOctal (digits : List Char) : Bool :=
  digits.head? == some '0' && (digits.drop 2).any (!isOctalDigit ·)

/-- The number at the start of some characters, with an optional minus sign before it. A fraction or an
exponent makes it no whole one, and what starts with its fraction has no exponent. -/
def number? (sign s : List Char) : Option (Token × List Char) :=
  let token (make : Text → Token) (t : List Char) : Token × List Char :=
    (make (Text.ofChars (sign ++ t)), s.drop t.length)
  match s with
  | '0' :: x :: rest =>
    if x == 'x' || x == 'X' then
      let digits := rest.takeWhile isHexDigit
      if digits.isEmpty then none else some (token .whole ('0' :: x :: digits))
    else plain token
  | _ => plain token
where
  plain (token : (Text → Token) → List Char → Token × List Char) : Option (Token × List Char) :=
    let digits := s.takeWhile Char.isDigit
    match s.drop digits.length with
    | '.' :: rest =>
      let fraction := rest.takeWhile Char.isDigit
      (exponent? (rest.drop fraction.length)).bind fun e =>
        if digits.isEmpty && !e.isEmpty then none
        else some (token .decimal (digits ++ '.' :: fraction ++ e))
    | rest => (exponent? rest).bind fun e =>
        if !e.isEmpty then some (token .decimal (digits ++ e))
        else if isBadOctal digits then none
        else some (token .whole digits)

/-! ## Quoted texts -/

/-- How many characters an escape takes behind its backslash. -/
def escapeLength? : List Char → Option Nat
  | [] => none
  | c :: rest =>
    let digits (isDigit : Char → Bool) (s : List Char) (width : Nat) : Bool :=
      (s.takeWhile isDigit).length ≥ width
    if "abfnrtv\\\"".toList.contains c then some 1
    else if isOctalDigit c then if digits isOctalDigit (c :: rest) 3 then some 3 else none
    else if c == 'x' then if digits isHexDigit rest 2 then some 3 else none
    else if c == 'u' then if digits isHexDigit rest 4 then some 5 else none
    else if c == 'U' then if digits isHexDigit rest 8 then some 9 else none
    else none

/-- The characters of a quoted text up to its closing quote, `done` being those read, in reverse.
Quotes within `braces`, which `${` opens, do not close it. -/
def quotedFrom? : Nat → Nat → List Char → List Char → Option (List Char × List Char)
  | 0, _, _, _ => none
  | fuel + 1, braces, done, s =>
    match s with
    | [] => none
    | c :: rest =>
      if c == '\n' && braces == 0 then none
      else if c == '"' && braces == 0 then some (done.reverse, rest)
      else if c == '\\' then
        match escapeLength? rest with
        | some n => quotedFrom? fuel braces ((rest.take n).reverse ++ c :: done) (rest.drop n)
        | none => none
      else if c == '$' && braces == 0 && rest.head? == some '\x7b' then
        quotedFrom? fuel 1 ('\x7b' :: c :: done) (rest.drop 1)
      else if c == '\x7b' && 0 < braces then quotedFrom? fuel (braces + 1) (c :: done) rest
      else if c == '\x7d' && 0 < braces then quotedFrom? fuel (braces - 1) (c :: done) rest
      else quotedFrom? fuel braces (c :: done) rest

/-- The bytes that an escape stands for. A number without a character stands for the replacement
character, unless it is too great; one that fills 32 bits stands for its last byte. -/
def unescape? (s : List Char) : Option Text :=
  let number (base : Nat) (digits : List Char) : Nat := digits.foldl (fun n c =>
    base * n + ((Text.hexValue? c.toUInt8).getD 0)) 0
  match s with
  | 'a' :: _ => some [7]
  | 'b' :: _ => some [8]
  | 'f' :: _ => some [12]
  | 'n' :: _ => some [10]
  | 'r' :: _ => some [13]
  | 't' :: _ => some [9]
  | 'v' :: _ => some [11]
  | 'x' :: digits => some [UInt8.ofNat (number 16 digits)]
  | c :: digits =>
    if c == 'u' || c == 'U' then
      let n := number 16 digits
      if 0x80000000 ≤ n then some [UInt8.ofNat n]
      else if 0x10FFFF < n then none
      else some (Text.ofChar (if n.isValidChar then Char.ofNat n else Rune.replacement))
    else if isOctalDigit c then
      let n := number 8 s
      if n < 256 then some [UInt8.ofNat n] else none
    else some (Text.ofChar c)
  | [] => none

/-- The value of a quoted text. What `${` and its brace enclose stays as it is. -/
def unquoteFrom? : Nat → Nat → Text → List Char → Option Text
  | 0, _, _, _ => none
  | fuel + 1, braces, done, s =>
    match s with
    | [] => some done
    | c :: rest =>
      if 0 < braces then
        let braces := if c == '\x7b' then braces + 1 else if c == '\x7d' then braces - 1 else braces
        if c == Rune.replacement then none
        else unquoteFrom? fuel braces (done ++ Text.ofChar c) rest
      else if c == '$' && rest.head? == some '\x7b' then
        unquoteFrom? fuel 1 (done ++ Text.ofString "$\x7b") (rest.drop 1)
      else if c == '\\' then
        match escapeLength? rest with
        | some n => match unescape? (rest.take n) with
          | some value => unquoteFrom? fuel 0 (done ++ value) (rest.drop n)
          | none => none
        | none => none
      else unquoteFrom? fuel 0 (done ++ Text.ofChar c) rest

def unquote? (s : List Char) : Option Text := unquoteFrom? (s.length + 1) 0 [] s

/-! ## Texts of several lines -/

/-- Whether a line closes a text of several lines that `anchor` opened, with at least `least` blanks
before it. -/
def closesBlock (anchor : List Char) (least : Nat) (line : List Char) : Bool :=
  let isSpace (c : Char) : Bool := isBlank c || c.toNat == 11 || c.toNat == 12
  let blanks := line.take (line.length - anchor.length)
  anchor.isSuffixOf line && least ≤ blanks.length && blanks.all isSpace

/-- The lines up to the one that closes a text of several lines, the blanks before the anchor on that
one, and what follows it. -/
def blockLines? (anchor : List Char) (least : Nat) : Nat → List Char →
    Option (List (List Char) × List Char × List Char)
  | 0, _ => none
  | fuel + 1, s =>
    let line := s.takeWhile (· != '\n')
    match s.drop line.length with
    | [] => none
    | _ :: rest =>
      if closesBlock anchor least line then
        some ([], line.take (line.length - anchor.length), rest)
      else (blockLines? anchor least fuel rest).map fun (lines, last) => (line :: lines, last)

/-- The value of a text of several lines. If it is `indented`, the blanks before its anchor are taken
from all lines, if they all start with them. -/
def blockValue (indented : Bool) (lines : List (List Char)) (blanks : List Char) : Text :=
  let joined (lines : List (List Char)) : List Char := lines.flatMap (· ++ ['\n'])
  Text.ofChars <|
    if !indented then joined lines ++ blanks
    else if lines.all blanks.isPrefixOf then joined (lines.map (·.drop blanks.length))
    else ((joined lines ++ blanks).reverse.dropWhile fun c => c == ' ' || c == '\t').reverse

/-- A text of several lines, behind its two signs. The anchor of an indented one has blanks before
it. -/
def block? (s : List Char) : Option (Text × List Char) :=
  let indented := s.head? == some '-'
  let s := if indented then s.drop 1 else s
  let anchor := s.takeWhile fun c => isLetter c || isDigit c
  if anchor.isEmpty then none
  else match s.drop anchor.length with
    | '\n' :: rest =>
      (blockLines? anchor (if indented then 1 else 0) (rest.length + 1) rest).map
        fun (lines, blanks, rest) => (blockValue indented lines blanks, rest)
    | _ => none

/-! ## Documents -/

/-- What follows a comment of several lines, behind its first two characters. -/
def skipComment? : List Char → Option (List Char)
  | [] => none
  | '*' :: '/' :: rest => some rest
  | _ :: rest => skipComment? rest

/-- The sign that a character is. -/
def sign? : Char → Option Token
  | '[' => some .openList
  | ']' => some .closeList
  | '\x7b' => some .openObject
  | '\x7d' => some .closeObject
  | ',' => some .comma
  | _ => none

/-- The tokens of a document in HCL, behind `done`. -/
def scanFrom : Nat → List Token → List Char → List Token
  | 0, done, _ => (.illegal :: done).reverse
  | _, done, [] => done.reverse
  | fuel + 1, done, c :: rest =>
    let stop := (Token.illegal :: done).reverse
    let next (found? : Option (Token × List Char)) : List Token := match found? with
      | some (token, rest) => scanFrom fuel (token :: done) rest
      | none => stop
    if isBlank c then scanFrom fuel done rest
    else if isLetter c then
      let word := (c :: rest).takeWhile isNamePart
      let token : Token := if word == "true".toList then .bool true
        else if word == "false".toList then .bool false
        else .name (Text.ofChars word)
      scanFrom fuel (token :: done) ((c :: rest).drop word.length)
    else if c.isDigit || (c == '.' && rest.head?.any Char.isDigit) then next (number? [] (c :: rest))
    else if c == '-' && rest.head?.any Char.isDigit then next (number? ['-'] rest)
    else if c == '"' then
      next ((quotedFrom? (rest.length + 1) 0 [] rest).map fun (s, rest) => (.text (unquote? s), rest))
    else if c == '#' || (c == '/' && rest.head? == some '/') then
      scanFrom fuel done (rest.dropWhile (· != '\n'))
    else if c == '/' && rest.head? == some '*' then
      match skipComment? (rest.drop 1) with
      | some rest => scanFrom fuel done rest
      | none => stop
    else if c == '<' && rest.head? == some '<' then
      next ((block? (rest.drop 1)).map fun (t, rest) => (.text (some t), rest))
    else if c == '=' then scanFrom fuel (.assign :: done) rest
    else next ((sign? c).map (·, rest))

/-- Whether a document can hold a character. -/
def isAllowed (c : Char) : Bool := c.toNat != 0 && c.toNat != 0xE123

/-- The tokens of a document in HCL. -/
def scan (s : List Char) : List Token :=
  if s.all isAllowed then scanFrom (s.length + 1) [] s else [.illegal]

/-- The characters of a quoted text in JSON up to its closing quote. -/
def jsonQuotedFrom? : Nat → List Char → List Char → Option (List Char × List Char)
  | 0, _, _ => none
  | fuel + 1, done, s =>
    match s with
    | [] => none
    | c :: rest =>
      if c == '\n' || c.toNat == 0 then none
      else if c == '"' then some (done.reverse, rest)
      else if c == '\\' then
        match escapeLength? rest with
        | some n => jsonQuotedFrom? fuel ((rest.take n).reverse ++ c :: done) (rest.drop n)
        | none => none
      else jsonQuotedFrom? fuel (c :: done) rest

/-- The number at the start of some characters in JSON. An exponent makes it no whole one, and a whole
one does not start with a zero. -/
def jsonNumber? (sign s : List Char) : Option (Token × List Char) :=
  let digits := s.takeWhile Char.isDigit
  let rest := s.drop digits.length
  let fraction := match rest with
    | '.' :: rest => '.' :: rest.takeWhile Char.isDigit
    | _ => []
  (exponent? (rest.drop fraction.length)).bind fun e =>
    let t := Text.ofChars (sign ++ digits ++ fraction ++ e)
    let after := rest.drop (fraction.length + e.length)
    if !fraction.isEmpty || !e.isEmpty then some (.decimal t, after)
    else if digits.head? == some '0' && 1 < digits.length then none
    else some (.whole t, after)

/-- The tokens of a document in JSON, behind `done`. A null character ends the document. -/
def scanJsonFrom : Nat → List Token → List Char → List Token
  | 0, done, _ => (.illegal :: done).reverse
  | _, done, [] => done.reverse
  | fuel + 1, done, c :: rest =>
    let stop := (Token.illegal :: done).reverse
    let next (found? : Option (Token × List Char)) : List Token := match found? with
      | some (token, rest) => scanJsonFrom fuel (token :: done) rest
      | none => stop
    if isBlank c then scanJsonFrom fuel done rest
    else if c.toNat == 0 then done.reverse
    else if isLetter c then
      let word := (c :: rest).takeWhile isNamePart
      let token? : Option Token := if word == "true".toList then some (.bool true)
        else if word == "false".toList then some (.bool false)
        else if word == "null".toList then some .null
        else none
      next (token?.map (·, (c :: rest).drop word.length))
    else if c.isDigit then next (jsonNumber? [] (c :: rest))
    else if c == '.' && rest.head?.any Char.isDigit then next (number? [] (c :: rest))
    else if c == '-' && rest.head?.any Char.isDigit then next (jsonNumber? ['-'] rest)
    else if c == '"' then
      next ((jsonQuotedFrom? (rest.length + 1) [] rest).map fun (s, rest) =>
        (.text (Text.unquote? (Text.ofChars ('"' :: s ++ ['"']))), rest))
    else if c == ':' then scanJsonFrom fuel (.colon :: done) rest
    else next ((sign? c).map (·, rest))

/-- The tokens of a document in JSON. -/
def scanJson (s : List Char) : List Token := scanJsonFrom (s.length + 1) [] s

end LiteralAudit.Hcl
