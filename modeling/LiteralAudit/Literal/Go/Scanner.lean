import LiteralAudit.Literal.Go.Tree
import LiteralAudit.Path
import LiteralAudit.Text.Quoted

/-!
# Scanning Go

`scan` splits a source into tokens. A line break after an identifier, a literal, a closing bracket
and a few keywords counts as a semicolon. Comments are skipped, except that a comment may hold a
directive that renumbers lines. Whatever is wrong with a character or a literal is noted at the token
during whose reading it is met; a character is met when the token before it ends.
-/

namespace LiteralAudit.Go

/-- A character of the source and the number of bytes before it. -/
structure Cell where
  char : Char
  offset : Nat
  deriving Inhabited

/-- Auxiliary to `cells`. -/
def cellsFrom : Nat → List Rune → List Cell
  | _, [] => []
  | offset, r :: rest => ⟨r.char, offset⟩ :: cellsFrom (offset + r.width) rest

/-- Auxiliary to `badCharacters`. -/
def badCharactersFrom : Nat → List Rune → List Note
  | _, [] => []
  | offset, r :: rest =>
    let more := badCharactersFrom (offset + r.width) rest
    if r.char.toNat == 0 then ⟨offset, "illegal character NUL"⟩ :: more
    else if r.isStray then ⟨offset, "illegal UTF-8 encoding"⟩ :: more
    else if r.char.toNat == 0xFEFF && offset > 0 then ⟨offset, "illegal byte order mark"⟩ :: more
    else more

def isLetter (c : Char) : Bool := c == '_' || Unicode.isLetter c

def isDecimal (c : Char) : Bool := c.isDigit

def isHex (c : Char) : Bool := c.isDigit || ('a' ≤ c && c ≤ 'f') || ('A' ≤ c && c ≤ 'F')

/-- The spelling of cells. -/
def spelling (cs : List Cell) : Text := Text.ofChars (cs.map (·.char))

/-- What the scanner carries from token to token: the cells left, whether a line break counts as a
semicolon, whether the first cell starts a line, and the directives met so far, the latest first. -/
structure Scanner where
  file : Text
  size : Nat
  cells : List Cell
  insertSemi : Bool := false
  lineStarts : List Nat
  directives : List LineDirective := []
  /-- A line break inside the comment just passed counts as a semicolon. -/
  pendingBreak : Option Nat := none
  deriving Inhabited

/-- The offset of the first cell left. -/
def offsetOf (size : Nat) (cs : List Cell) : Nat := (cs.head?.map (·.offset)).getD size

/-! ## Numbers -/

/-- The word for a number with a given letter after its leading zero. -/
def numberName (letter : Option Char) : Text :=
  match letter with
  | some 'x' => "hexadecimal literal"
  | some 'o' | some '0' => "octal literal"
  | some 'b' => "binary literal"
  | _ => "decimal literal"

/-- A character between single quotes, as messages show it. -/
def quotedChar (c : Char) : Text :=
  if c == '\'' then "'\\''"
  else if c == '"' then "'\"'"
  else "'" ++ ((Text.quoted (Text.ofChar c)).drop 1).dropLast ++ "'"

/-- Auxiliary to `badSeparator?`: `last` says what the character before was, a digit, an underscore
or neither. -/
def badSeparatorFrom (hex : Bool) : Option Bool → Nat → List Char → Option Nat
  | last, i, [] => if last == some false then some (i - 1) else none
  | last, i, c :: rest =>
    if c == '_' then
      if last == some true then badSeparatorFrom hex (some false) (i + 1) rest else some i
    else if isDecimal c || hex && isHex c then badSeparatorFrom hex (some true) (i + 1) rest
    else if last == some false then some (i - 1)
    else badSeparatorFrom hex none (i + 1) rest

/-- The place of the first underscore of a number that does not separate two digits. -/
def badSeparator? (cs : List Char) : Option Nat :=
  match cs with
  | '0' :: x :: rest =>
    let letter := x.toLower
    if letter == 'x' || letter == 'o' || letter == 'b' then
      badSeparatorFrom (letter == 'x') (some true) 2 rest
    else badSeparatorFrom false none 0 cs
  | _ => badSeparatorFrom false none 0 cs

/-- The digits and underscores at the front. -/
def digitSpan (hex : Bool) (cs : List Cell) : List Cell × List Cell :=
  cs.span fun c => c.char == '_' || (if hex then isHex c.char else isDecimal c.char)

/-- The letter behind the leading zero of a number, which is `0` where a digit stands there, the base, the
cells of the prefix and those behind it. -/
def numberPrefix (cs : List Cell) : Option Char × Nat × List Cell × List Cell :=
  match cs with
  | z :: x :: rest =>
    if z.char == '0' then
      let l := x.char.toLower
      if l == 'x' then (some 'x', 16, [z, x], rest)
      else if l == 'o' then (some 'o', 8, [z, x], rest)
      else if l == 'b' then (some 'b', 2, [z, x], rest)
      else (some '0', 8, [z], x :: rest)
    else (none, 10, [], cs)
  | [z] => if z.char == '0' then (some '0', 8, [z], []) else (none, 10, [], cs)
  | [] => (none, 10, [], [])

/-- A number at the front of the cells. -/
def scanNumber (size : Nat) (cs : List Cell) : Tok × List Cell × List Cell × List Note :=
  let start := offsetOf size cs
  let isDigit (c : Cell) : Bool := c.char != '_'
  -- the integer part
  let (letter, base, lead, rest) := numberPrefix cs
  let fractional := cs.head?.any (·.char == '.')
  let (whole, rest) := if fractional then ([], cs) else digitSpan (base == 16) rest
  -- the fraction
  let point := rest.head?.any (·.char == '.')
  let (fraction, rest) : List Cell × List Cell :=
    if point then
      let (ds, after) := digitSpan (base == 16) (rest.drop 1)
      (rest.take 1 ++ ds, after)
    else ([], rest)
  let digits := whole ++ fraction.drop 1
  let hasDigits := letter == some '0' || digits.any isDigit
  let radixNotes : List Note :=
    if point && (letter == some 'o' || letter == some 'b') then
      [⟨offsetOf size fraction, "invalid radix point in " ++ numberName letter⟩]
    else []
  let digitNotes : List Note :=
    if hasDigits then []
    else [⟨offsetOf size rest, numberName letter ++ " has no digits"⟩]
  -- the exponent
  let mark? := rest.head?.filter fun c =>
    c.char == 'e' || c.char == 'E' || c.char == 'p' || c.char == 'P'
  let (exponent, rest, exponentNotes) : List Cell × List Cell × List Note :=
    match mark? with
    | some mark =>
      let e := mark.char.toLower
      let wrong : List Note :=
        if e == 'e' && letter.any (· != '0') then
          [⟨mark.offset, quotedChar mark.char ++ " exponent requires decimal mantissa"⟩]
        else if e == 'p' && letter != some 'x' then
          [⟨mark.offset, quotedChar mark.char ++ " exponent requires hexadecimal mantissa"⟩]
        else []
      let (sign, after) := (rest.drop 1).span fun c => c.char == '+' || c.char == '-'
      let (sign, after) := (sign.take 1, sign.drop 1 ++ after)
      let (ds, after) := digitSpan false after
      let missing : List Note :=
        if ds.any isDigit then [] else [⟨offsetOf size after, "exponent has no digits"⟩]
      ([mark] ++ sign ++ ds, after, wrong ++ missing)
    | none =>
      ([], rest, if letter == some 'x' && point then
        [⟨offsetOf size rest, "hexadecimal mantissa requires a 'p' exponent"⟩] else [])
  -- the mark of an imaginary number
  let imaginary := rest.head?.any (·.char == 'i')
  let (suffix, rest) := if imaginary then (rest.take 1, rest.drop 1) else ([], rest)
  let written := lead ++ whole ++ fraction ++ exponent ++ suffix
  let tok : Tok := if imaginary then .imag else if point || mark?.isSome then .float else .int
  let limit := if base == 2 then 2 else if base == 8 then 8 else 10
  let invalidNotes : List Note :=
    if tok == .int && base ≤ 10 then
      match digits.find? fun c => isDigit c && c.char.toNat - 48 ≥ limit with
      | some c =>
        [⟨c.offset, "invalid digit " ++ quotedChar c.char ++ " in " ++ numberName letter⟩]
      | none => []
    else []
  let separatorNotes : List Note :=
    match badSeparator? (written.map (·.char)) with
    | some i =>
      if written.any (·.char == '_') then
        [⟨start + i, "'_' must separate successive digits"⟩]
      else []
    | none => []
  (tok, written, rest,
    radixNotes ++ digitNotes ++ exponentNotes ++ invalidNotes ++ separatorNotes)

/-! ## Strings and characters -/

/-- A code point as messages show it: `U+0040 '@'`. -/
def codePoint (c : Char) : Text :=
  let digits := (Nat.toDigits 16 c.toNat).map fun d => d.toUpper.toUInt8
  "U+" ++ List.replicate (4 - digits.length) ('0' : UInt8) ++ digits ++
    (if Unicode.isPrintable c then " '" ++ Text.ofChar c ++ "'" else [] : Text)

/-- The digits of a numeric escape: how many are missing of `count`, and the value so far. -/
def escapeDigits (size base : Nat) : Nat → Nat → List Cell → Except (List Cell × Note) (Nat × List Cell)
  | 0, n, cs => .ok (n, cs)
  | _ + 1, _, [] => .error ([], ⟨size, "escape sequence not terminated"⟩)
  | count + 1, n, c :: cs =>
    let digit := if isHex c.char then
        (if c.char.isDigit then c.char.toNat - 48 else c.char.toLower.toNat - 87) else 16
    if digit < base then escapeDigits size base count (n * base + digit) cs
    else .error (c :: cs, ⟨c.offset, "illegal character " ++ codePoint c.char ++
      " in escape sequence"⟩)

/-- What follows an escape, whose backslash is already passed, and what is wrong with it. -/
def scanEscape (size : Nat) (quote : Char) (cs : List Cell) : List Cell × Option Note :=
  let numeric (count base most : Nat) (from_ : List Cell) : List Cell × Option Note :=
    match escapeDigits size base count 0 from_ with
    | .error (rest, note) => (rest, some note)
    | .ok (n, rest) =>
      if n > most || (0xD800 ≤ n && n < 0xE000) then
        (rest, some ⟨offsetOf size cs, "escape sequence is invalid Unicode code point"⟩)
      else (rest, none)
  match cs with
  | [] => ([], some ⟨size, "escape sequence not terminated"⟩)
  | c :: rest =>
    if c.char == quote || ['a', 'b', 'f', 'n', 'r', 't', 'v', '\\'].contains c.char then (rest, none)
    else if '0' ≤ c.char && c.char ≤ '7' then numeric 3 8 255 cs
    else if c.char == 'x' then numeric 2 16 255 rest
    else if c.char == 'u' then numeric 4 16 0x10FFFF rest
    else if c.char == 'U' then numeric 8 16 0x10FFFF rest
    else (cs, some ⟨c.offset, "unknown escape sequence"⟩)

/-- The rest of a string after its opening quote: what follows it, and what is wrong with it. -/
def scanString (size start : Nat) : Nat → List Note → List Cell → List Cell × List Note
  | 0, notes, cs => (cs, notes)
  | fuel + 1, notes, cs =>
    match cs with
    | [] => ([], notes ++ [⟨start, "string literal not terminated"⟩])
    | c :: rest =>
      if c.char == '\n' then (cs, notes ++ [⟨start, "string literal not terminated"⟩])
      else if c.char == '"' then (rest, notes)
      else if c.char == '\\' then
        let (rest, note) := scanEscape size '"' rest
        scanString size start fuel (notes ++ note.toList) rest
      else scanString size start fuel notes rest

/-- The rest of a character after its opening quote; `count` characters were read, all of them well
formed if `valid`. -/
def scanChar (size start : Nat) :
    Nat → Nat → Bool → List Note → List Cell → List Cell × List Note
  | 0, _, _, notes, cs => (cs, notes)
  | fuel + 1, count, valid, notes, cs =>
    let unterminated : List Note :=
      if valid then [⟨start, "rune literal not terminated"⟩] else []
    match cs with
    | [] => ([], notes ++ unterminated)
    | c :: rest =>
      if c.char == '\n' then (cs, notes ++ unterminated)
      else if c.char == '\'' then
        (rest, if valid && count != 1 then notes ++ [⟨start, "illegal rune literal"⟩] else notes)
      else if c.char == '\\' then
        let (rest, note) := scanEscape size '\'' rest
        scanChar size start fuel (count + 1) (valid && note.isNone) (notes ++ note.toList) rest
      else scanChar size start fuel (count + 1) valid notes rest

/-! ## Comments -/

/-- The number after the last colon of a text: where its digits start, and its value if they are all
digits and it fits a word of 64 bits. The word is taken as a signed number. `none` without a colon. -/
def trailingNumber? (t : Text) : Option (Nat × Option Int) :=
  (Text.lastIndexOfByte? t ':').map fun i =>
    let digits := t.drop (i + 1)
    let value := digits.foldl (fun n b => n * 10 + (b.toNat - 48)) 0
    if !digits.isEmpty && digits.all Text.isDigit && value < UInt64.size then
      (i + 1, some value.toUInt64.toInt64.toInt)
    else (i + 1, none)

/-- The greatest line or column that a directive may give: `2 ^ 30`. -/
def maxLine : Int := 1073741824

/-- The file that a directive names, relative to the directory of the file it stands in. -/
def directiveFile (current : Text) (written : Text) : Text :=
  if written.isEmpty then []
  else
    let cleaned := Path.clean written
    if Path.isAbsolute cleaned then cleaned
    else
      let dir := match Text.lastIndexOfByte? current '/' with
        | some i => current.take (i + 1)
        | none => []
      Path.join [dir, cleaned]

/-- The directive in a comment of the form `line file:line` or `line file:line:column`; `text` is what
follows the word, `offset` its place and `next` the place after the comment. -/
def readDirective (layout : Layout) (offset next : Nat) (text : Text) :
    Except Note (Option LineDirective) :=
  match trailingNumber? text with
  | none => .ok none
  | some (i, none) => .error ⟨offset + i, "invalid line number: " ++ text.drop i⟩
  | some (i, some n) =>
    let badLine (i : Nat) (text : Text) : Except Note (Option LineDirective) :=
      .error ⟨offset + i, "invalid line number: " ++ text.drop i⟩
    match trailingNumber? (text.take (i - 1)) with
    | some (j, some line) =>
      if n == 0 || n > maxLine then
        .error ⟨offset + i, "invalid column number: " ++ text.drop i⟩
      else
        let text := text.take (i - 1)
        if line == 0 || line > maxLine then badLine j text
        else
          let name := text.take (j - 1)
          let file := if name.isEmpty then (layout.position offset).file
            else directiveFile layout.file name
          .ok (some ⟨next, file, line, n⟩)
    | _ =>
      if n == 0 || n > maxLine then badLine i text
      else .ok (some ⟨next, directiveFile layout.file (text.take (i - 1)), n, 0⟩)

/-- The cells of a `/*` comment after its opening, up to and with its end, if it has one. -/
def blockComment? : List Cell → List Cell → Option (List Cell × List Cell)
  | done, a :: b :: rest =>
    if a.char == '*' && b.char == '/' then some ((b :: a :: done).reverse, rest)
    else blockComment? (a :: done) (b :: rest)
  | _, _ => none

/-- The scanner after a directive, if the comment holds one, and what is wrong with it. -/
def Scanner.afterComment (s : Scanner) (startsLine : Bool) (comment rest : List Cell) :
    Scanner × List Note :=
  let start := offsetOf s.size comment
  let next := offsetOf s.size rest
  let text := spelling comment
  let isBlock := text.startsWith "/*"
  let next := if !isBlock && rest.head?.any (·.char == '\n') then next + 1 else next
  let text := if isBlock then text.take (text.length - 2)
    else if text.getLast? == some ('\r' : UInt8) then text.dropLast else text
  let s := { s with cells := rest }
  if (isBlock || startsLine) && Text.startsWith (text.drop 2) "line " then
    let layout : Layout := ⟨s.file, s.lineStarts, s.directives.reverse⟩
    match readDirective layout (start + 7) next (text.drop 7) with
    | .error note => (s, [note])
    | .ok none => (s, [])
    | .ok (some d) =>
      let later := s.directives.head?.all (·.offset < d.offset)
      (if later && d.offset < s.size then { s with directives := d :: s.directives } else s, [])
  else (s, [])

/-! ## Tokens -/

/-- Blanks, of which line breaks are only skipped where they do not count as semicolons. -/
def isBlank (insertSemi : Bool) (c : Cell) : Bool :=
  c.char == ' ' || c.char == '\t' || c.char == '\r' || (c.char == '\n' && !insertSemi)

/-- The operator at the front of the cells. -/
def operator? (cs : List Cell) : Option String :=
  let front := String.ofList ((cs.take 3).map (·.char))
  operators.find? (·.isPrefixOf front)

/-- One token of the source, given the character before the cells. Comments come back as `none`. -/
def Scanner.next (s : Scanner) : Option Token × Scanner × List Note :=
  match s.pendingBreak with
  | some offset =>
    (some ⟨.op ";", "\n", offset, offset, []⟩, { s with pendingBreak := none }, [])
  | none =>
  let blanks := s.cells.takeWhile (isBlank s.insertSemi)
  let cs := s.cells.drop blanks.length
  let start := offsetOf s.size cs
  let token (tok : Tok) (written rest : List Cell) (semi : Bool) (notes : List Note) :
      Option Token × Scanner × List Note :=
    (some ⟨tok, spelling written, start, offsetOf s.size rest, []⟩,
      { s with cells := rest, insertSemi := semi }, notes)
  match cs with
  | [] =>
    if s.insertSemi then
      (some ⟨.op ";", "\n", start, start, []⟩, { s with cells := [], insertSemi := false }, [])
    else (some ⟨.eof, [], start, start, []⟩, { s with cells := [] }, [])
  | c :: rest =>
    let quoted (tok : Tok) (after : List Cell × List Note) :
        Option Token × Scanner × List Note :=
      token tok (cs.take (cs.length - after.1.length)) after.1 true after.2
    if c.char == '\n' then
      (some ⟨.op ";", "\n", start, start + 1, []⟩,
        { s with cells := rest, insertSemi := false }, [])
    else if isLetter c.char then
      let (word, after) := cs.span fun c => isLetter c.char || Unicode.isDecimalDigit c.char
      let name := String.ofList (word.map (·.char))
      if keywords.contains name then
        token (.keyword name) word after
          (["break", "continue", "fallthrough", "return"].contains name) []
      else token .ident word after true []
    else if isDecimal c.char || (c.char == '.' && rest.head?.any (isDecimal ·.char)) then
      let (tok, written, after, notes) := scanNumber s.size cs
      token tok written after true notes
    else if c.char == '"' then quoted .string (scanString s.size start (cs.length + 1) [] rest)
    else if c.char == '\'' then quoted .char (scanChar s.size start (cs.length + 1) 0 true [] rest)
    else if c.char == Char.ofNat 0x60 then
      let (body, after) := rest.span fun c => c.char != Char.ofNat 0x60
      let notes : List Note :=
        if after.isEmpty then [⟨start, "raw string literal not terminated"⟩] else []
      let written := (c :: body ++ after.take 1).filter fun c => c.char != '\r'
      (some ⟨.string, spelling written, start, offsetOf s.size (after.drop 1), []⟩,
        { s with cells := after.drop 1, insertSemi := true }, notes)
    else if c.char == '/' && rest.head?.any (·.char == '/') then
      let (comment, after) := cs.span fun c => c.char != '\n'
      let startsLine := s.lineStarts.contains start
      let (s, notes) := s.afterComment startsLine comment after
      (none, s, notes)
    else if c.char == '/' && rest.head?.any (·.char == '*') then
      match blockComment? [] (rest.drop 1) with
      | none =>
        (none, { s with cells := [] }, [⟨start, "comment not terminated"⟩])
      | some (body, after) =>
        let break? := (body.find? (·.char == '\n')).map (·.offset)
        let (s, notes) := s.afterComment false (c :: rest.take 1 ++ body) after
        let ends := s.insertSemi && break?.isSome
        (none, { s with
          insertSemi := s.insertSemi && !ends
          pendingBreak := if ends then break? else none }, notes)
    else match operator? cs with
      | some op =>
        let size := op.length
        token (.op op) (cs.take size) (cs.drop size)
          ([")", "]", "\x7d", "++", "--"].contains op) []
      | none =>
        let notes : List Note :=
          if c.char.toNat == 0xFEFF then []
          else if c.char.toNat == 0x201C || c.char.toNat == 0x201D then
            [⟨start, "curly quotation mark " ++ quotedChar c.char ++ " (use neutral '\"')"⟩]
          else [⟨start, "illegal character " ++ codePoint c.char⟩]
        token .illegal [c] rest s.insertSemi notes

/-- The tokens up to the end of the file; `notes` were met since the last one, and `bad` are the bad
characters not met yet. -/
def Scanner.run : Nat → List Note → List Note → Scanner → List Token × Scanner
  | 0, _, _, s => ([], s)
  | fuel + 1, bad, notes, s =>
    let (token?, s, more) := s.next
    let notes := notes ++ more
    match token? with
    | none => s.run fuel bad notes
    | some t =>
      let met := bad.takeWhile (·.offset ≤ t.stop)
      let t := { t with notes := met ++ notes }
      if t.tok == .eof then ([t], s)
      else
        let (ts, s) := s.run fuel (bad.drop met.length) []
        (t :: ts, s)

/-- Where the lines of a source start: after each line break that is not its last byte. -/
def lineStartsOf (size : Nat) (cs : List Cell) : List Nat :=
  0 :: cs.filterMap fun c =>
    if c.char == '\n' && c.offset + 1 < size then some (c.offset + 1) else none

/-- A byte order mark in pairs of bytes opens the source. Nothing behind it is read. -/
def startsInPairs : Text → Bool
  | 0xFF :: 0xFE :: _ | 0xFE :: 0xFF :: _ => true
  | _ => false

/-- The tokens of a source, and what places in it are computed from. -/
def scan (file source : Text) : List Token × Layout :=
  let paired := startsInPairs source
  let runes := if paired then source.runes.take 1 else source.runes
  let bad := if paired then [⟨0, "illegal UTF-8 encoding (got UTF-16)"⟩] else badCharactersFrom 0 runes
  let cells := cellsFrom 0 runes
  let starts := lineStartsOf source.length cells
  let body := match cells with
    | c :: rest => if c.char.toNat == 0xFEFF then rest else cells
    | [] => []
  let (tokens, s) := Scanner.run (2 * cells.length + 3) bad []
    { file, size := source.length, cells := body, lineStarts := starts }
  (tokens, ⟨file, starts, s.directives.reverse⟩)

end LiteralAudit.Go
