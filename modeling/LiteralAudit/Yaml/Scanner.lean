import LiteralAudit.Text.Utf8
import LiteralAudit.Yaml.Scalar

/-!
# Tokens of a YAML stream

Indentation becomes tokens that open and close blocks. A mapping key is only recognised when the
colon behind it is met, so every place that may start a key is remembered, one per open bracket, and
the tokens for the key and its mapping are inserted there when the colon comes.

`Yaml.tokens` lists the tokens of a stream up to its end or to the first fault.
-/

namespace LiteralAudit.Yaml

/-- How many bytes a character has that starts with a byte; none when no character does. -/
def charWidth? (b : Nat) : Option Nat :=
  if b < 0x80 then some 1
  else if 0xC0 ≤ b && b < 0xE0 then some 2
  else if 0xE0 ≤ b && b < 0xF0 then some 3
  else if 0xF0 ≤ b && b < 0xF8 then some 4
  else none

/-- A place that may start a key. -/
structure PossibleKey where
  /-- Whether a key must start here, because the block has begun with one. -/
  required : Bool
  /-- How many tokens came before. -/
  number : Nat
  line : Nat
  column : Nat
  index : Nat

/-- How far a colon may be from the start of its key. -/
def keyLimit : Nat := 1024

/-- Whether a key that starts at a place can go on to a cursor. -/
def PossibleKey.reaches (k : PossibleKey) (c : Cursor) : Bool :=
  k.line == c.line && c.index ≤ k.index + keyLimit

/-- The keys inside a bracket, or outside of all. -/
structure Level where
  key? : Option PossibleKey := none
  /-- The number of the token that may last have started a key, and at first that of the bracket. -/
  number : Nat := 0

structure Scan where
  cursor : Cursor
  /-- The stream cannot be read beyond its last character here. -/
  cut : Bool := false
  /-- The tokens so far, the last one first, and how many they are. -/
  done : List Token := []
  count : Nat := 0
  /-- The column of the block, if one is open, and of the blocks around it. -/
  indents : List Nat := []
  /-- For each open bracket and for the block around them, a place that may start a key. The first is
  the innermost. -/
  levels : List Level := [{}]
  /-- The numbers of the tokens that must not be used before it is known whether they start a key. -/
  awaited : List Nat := []
  keyAllowed : Bool := true

namespace Scan

def inFlow (s : Scan) : Bool :=
  match s.levels with
  | _ :: _ :: _ => true
  | _ => false

def push (s : Scan) (t : Token) : Scan := { s with done := t :: s.done, count := s.count + 1 }

/-- Inserts a token behind the first `number` ones. -/
def insert (s : Scan) (number : Nat) (t : Token) : Scan :=
  let behind := s.count - number
  { s with done := s.done.take behind ++ t :: s.done.drop behind, count := s.count + 1 }

/-- How many blocks or brackets may be open at a time. -/
def depthLimit : Nat := 10000

/-- Closes the blocks that are indented more than `column?`; all of them without one. -/
def closeBlocks (column? : Option Nat) (s : Scan) : Scan :=
  if s.inFlow then s
  else
    let closed := s.indents.takeWhile fun i =>
      match column? with
      | some column => column < i
      | none => true
    closed.foldl (fun s _ => s.push .blockEnd) { s with indents := s.indents.drop closed.length }

/-- Opens a block at a column that is indented more than the block around it; its token goes behind
the first `number` tokens. A fault when there are too many. -/
def openBlock (s : Scan) (column number : Nat) (t : Token) : Option Scan :=
  if s.inFlow || s.indents.head?.any (column ≤ ·) then some s
  else if s.indents.length ≥ depthLimit then none
  else some ({ s with indents := column :: s.indents }.insert number t)

/-- The place that may start a key at the current level. -/
def key? (s : Scan) : Option PossibleKey := s.levels.head?.bind (·.key?)

/-- The scan with another place at the current level. -/
def withKey (s : Scan) (key? : Option PossibleKey) : Scan :=
  match s.levels with
  | l :: rest => { s with levels := { l with key? } :: rest }
  | [] => s

/-- Forgets the place that may start a key; a fault when one must start there. -/
def dropKey (s : Scan) : Option Scan :=
  match s.key? with
  | some k =>
    if k.required then none
    else some { s.withKey none with awaited := s.awaited.erase k.number }
  | none => some s

/-- Remembers the cursor as a place that may start a key. -/
def saveKey (s : Scan) : Option Scan :=
  if !s.keyAllowed then some s
  else
    let c := s.cursor
    let required := !s.inFlow && s.indents.head? == some c.column
    (dropKey s).map fun s =>
      let key : PossibleKey := ⟨required, s.count, c.line, c.column, c.index⟩
      { s with
        levels := { key? := some key, number := s.count } :: s.levels.drop 1
        awaited := s.count :: s.awaited }

/-- The place that starts the key before a colon at the cursor, if it is near enough; a fault when one
must start there and is not. -/
def currentKey (s : Scan) : Option (Option PossibleKey) :=
  match s.key? with
  | some k => if k.reaches s.cursor then some (some k) else if k.required then none else some none
  | none => some none

/-- The first token that must not be used yet. -/
def unsettled? (s : Scan) : Option Nat :=
  let numbers := s.levels.filterMap fun l =>
    l.key?.bind fun k =>
      if k.reaches s.cursor && s.awaited.contains k.number then some k.number else none
  numbers.getLast?

/-- A comment at the cursor or behind blanks is passed, up to the end of its line. -/
def skipComment (s : Scan) : Scan :=
  let c := s.cursor.skipWhile isBlank
  if c.rest.head? == some '#' then { s with cursor := c.skipWhile (!isBreak ·) } else s

/-- Comments are found across fewer blanks and line breaks than this. -/
def commentReach : Nat := 512

/-- The cursor at the next comment, behind blanks and line breaks. -/
def toComment : Nat → Cursor → Cursor
  | 0, c => c
  | fuel + 1, c =>
    match c.rest with
    | x :: _ =>
      if isBreak x then toComment fuel c.skipBreak
      else if isBlank x then toComment fuel c.skip
      else c
    | [] => c

/-- Passes a comment, and the comments behind it; tabs may indent those. -/
def skipComments : Nat → Cursor → Cursor
  | 0, c => c
  | fuel + 1, c =>
    let c := c.skipWhile (!isBreak ·)
    let gap := c.rest.takeWhile fun x => x == ' ' || x == '\t' || x == '\r' || x == '\n'
    if gap.length < commentReach && (c.rest.drop gap.length).head? == some '#' then
      skipComments fuel (toComment gap.length c)
    else c

/-- Passes blanks, comments and line breaks. Tabs do not indent. -/
def skipToToken : Nat → Scan → Scan
  | 0, s => s
  | fuel + 1, s =>
    let c := s.cursor
    let c := if c.column == 0 && c.rest.head? == some '\uFEFF' then c.skip else c
    let c := c.skipWhile fun x => x == ' ' || (x == '\t' && (s.inFlow || !s.keyAllowed))
    let c := if c.rest.head? == some '#' then skipComments (fuel + 1) c else c
    if c.rest.head?.any isBreak then
      skipToToken fuel { s with cursor := c.skipBreak, keyAllowed := s.keyAllowed || !s.inFlow }
    else { s with cursor := c }

/-! ## The tokens -/

def streamEnd (s : Scan) : Option Scan :=
  (closeBlocks none s).dropKey.map (·.push .streamEnd)

/-- A token at the start of a line that ends all blocks. -/
def boundary (s : Scan) (t : Token) : Option Scan :=
  (closeBlocks none s).dropKey.map fun s =>
    { s with keyAllowed := false, cursor := s.cursor.skipN 3 }.push t

def openFlow (s : Scan) (t : Token) : Option Scan :=
  s.saveKey.bind fun s =>
    if s.levels.length > depthLimit then none
    else some ({ s with
      levels := { number := s.count } :: s.levels
      keyAllowed := true
      cursor := s.cursor.skip }.push t)

/-- A closing bracket. A bracket that holds no place for a key is not awaited any more. -/
def closeFlow (s : Scan) (t : Token) : Option Scan :=
  s.dropKey.map fun s =>
    let s := match s.levels with
      | l :: l' :: rest => { s with levels := l' :: rest, awaited := s.awaited.erase l.number }
      | _ => s
    { s with keyAllowed := false, cursor := s.cursor.skip }.push t

def flowEntry (s : Scan) : Option Scan :=
  s.dropKey.map fun s => { s with keyAllowed := true, cursor := s.cursor.skip }.push .flowEntry

/-- The `-` of a block sequence, or the `?` of a complex key. -/
def blockIndicator (s : Scan) (opens t : Token) (keyAfter : Bool) : Option Scan :=
  if !s.inFlow && !s.keyAllowed then none
  else
    (s.openBlock s.cursor.column s.count opens).bind fun s =>
      s.dropKey.map fun s => { s with keyAllowed := keyAfter, cursor := s.cursor.skip }.push t

/-- A colon: the token of its key is inserted where the key starts. -/
def valueIndicator (s : Scan) : Option Scan :=
  let finish (s : Scan) : Scan := { s with cursor := s.cursor.skip }.push .value
  match s.currentKey with
  | none => none
  | some (some k) =>
    ((s.insert k.number .key).openBlock k.column k.number .blockMappingStart).map fun s =>
      finish { s.withKey none with awaited := s.awaited.erase k.number, keyAllowed := false }
  | some none =>
    if s.inFlow then some (finish { s with keyAllowed := false })
    else if !s.keyAllowed then none
    else (s.openBlock s.cursor.column s.count .blockMappingStart).map fun s =>
      finish { s with keyAllowed := true }

/-- An anchor or alias behind its mark. -/
def anchorName (s : Scan) (make : List Char → Token) : Option Scan :=
  s.saveKey.bind fun s =>
    let c := s.cursor.skip
    let name := c.rest.takeWhile isNameChar
    let c := c.skipN name.length
    let ends := atBlankOrEnd c.rest || c.rest.head?.any fun x =>
      ['?', ':', ',', ']', '\x7d', '%', '@', Char.ofNat 0x60].contains x
    if name.isEmpty || !ends then none
    else some ({ s with keyAllowed := false, cursor := c }.push (make name))

/-- A character of tags and their expansions. -/
def isTagChar (c : Char) : Bool :=
  isNameChar c ||
    [';', '/', '?', ':', '@', '&', '=', '+', '$', '.', '!', '~', '*', '\'', '(', ')', '%', ',',
     '[', ']'].contains c

/-- A tag with its escapes resolved to bytes. The bytes of one character are all escaped, and `more`
of them are still to come. -/
def unescapeTag : (more : Nat) → List Char → Option Text
  | more, '%' :: a :: b :: rest => do
    let byte := 16 * (← hexDigit? a) + (← hexDigit? b)
    let more ← match more with
      | 0 => (charWidth? byte).map (· - 1)
      | more + 1 => if 0x80 ≤ byte && byte < 0xC0 then some more else none
    return UInt8.ofNat byte :: (← unescapeTag more rest)
  | 0, c :: rest => if c == '%' then none else (unescapeTag 0 rest).map (Text.ofChar c ++ ·)
  | 0, [] => some []
  | _ + 1, _ => none

/-- The handle and the suffix of a tag at a cursor, and the cursor behind it. -/
def tagParts? (c : Cursor) : Option (List Char × Text × Cursor) :=
  match c.rest with
  | '!' :: '<' :: rest =>
    let uri := rest.takeWhile isTagChar
    if uri.isEmpty || (rest.drop uri.length).head? != some '>' then none
    else (unescapeTag 0 uri).map fun u => ([], u, c.skipN (uri.length + 3))
  | _ =>
    let name := (c.rest.drop 1).takeWhile isNameChar
    let afterName := c.rest.drop (1 + name.length)
    if afterName.head? == some '!' then
      let suffix := (afterName.drop 1).takeWhile isTagChar
      if suffix.isEmpty then none
      else (unescapeTag 0 suffix).map fun u =>
        ('!' :: name ++ ['!'], u, c.skipN (2 + name.length + suffix.length))
    else
      let suffix := (c.rest.drop 1).takeWhile isTagChar
      (unescapeTag 0 suffix).map fun u =>
        if u.isEmpty then ([], Text.ofString "!", c.skip) else (['!'], u, c.skipN (1 + suffix.length))

def tagToken (s : Scan) : Option Scan :=
  s.saveKey.bind fun s =>
    match tagParts? s.cursor with
    | none => none
    | some (handle, suffix, c) =>
      if !atBlankOrEnd c.rest then none
      else some ({ s with keyAllowed := false, cursor := c }.push (.tag handle suffix))

def quotedToken (s : Scan) (single : Bool) : Option Scan :=
  s.saveKey.bind fun s =>
    let c := s.cursor.skip
    (quotedScalar? single (c.rest.length + 1) [] c).map fun (text, c) =>
      { s with keyAllowed := false, cursor := c }.push (.scalar .quoted text)

def blockToken (s : Scan) (folded : Bool) : Option Scan :=
  s.dropKey.bind fun s =>
    (blockScalar? folded s.indents.head? s.cursor.skip).map fun (text, c) =>
      { s with keyAllowed := true, cursor := c }.push (.scalar .quoted text)

def plainToken (s : Scan) : Option Scan :=
  s.saveKey.bind fun s =>
    let indent := match s.indents.head? with
      | some i => i + 1
      | none => 0
    (plainScalar? s.inFlow indent (s.cursor.rest.length + 2) [] {} s.cursor).map
      fun (text, c, broken) =>
        { s with keyAllowed := broken, cursor := c }.push (.scalar .plain text)

/-- The end of a line behind a directive. -/
def directiveEnd (c : Cursor) : Option Cursor :=
  let c := c.skipWhile isBlank
  let c := if c.rest.head? == some '#' then c.skipWhile (!isBreak ·) else c
  if !atBreakOrEnd c.rest then none
  else some (if c.rest.isEmpty then c else c.skipBreak)

/-- A number of a version, of at most two digits. -/
def versionNumber? (c : Cursor) : Option (Nat × Cursor) :=
  let digits := c.rest.takeWhile Char.isDigit
  if digits.isEmpty || digits.length > 2 then none
  else some (digits.foldl (fun n d => 10 * n + (d.toNat - 48)) 0, c.skipN digits.length)

/-- A directive at the start of a line. -/
def directive (s : Scan) : Option Scan :=
  (closeBlocks none s).dropKey.bind fun s =>
    let c := s.cursor.skip
    let name := c.rest.takeWhile isNameChar
    let c := c.skipN name.length
    let finish (t : Token) (c : Cursor) : Option Scan :=
      (directiveEnd c).map fun c => { s with keyAllowed := false, cursor := c }.push t
    if name.isEmpty || !atBlankOrEnd c.rest then none
    else if name == "YAML".toList then
      match versionNumber? (c.skipWhile isBlank) with
      | none => none
      | some (major, c) =>
        if c.rest.head? != some '.' then none
        else match versionNumber? c.skip with
          | none => none
          | some (minor, c) => finish (.versionDirective major minor) c
    else if name == "TAG".toList then
      let c := c.skipWhile isBlank
      let inner := (c.rest.drop 1).takeWhile isNameChar
      let closed := (c.rest.drop (1 + inner.length)).head? == some '!'
      let handle := c.rest.take (1 + inner.length + (if closed then 1 else 0))
      if c.rest.head? != some '!' || (!closed && !inner.isEmpty) then none
      else
        let c := c.skipN handle.length
        if !c.rest.head?.any isBlank then none
        else
          let c := c.skipWhile isBlank
          let uri := c.rest.takeWhile isTagChar
          let c := c.skipN uri.length
          if uri.isEmpty || !atBlankOrEnd c.rest then none
          else match unescapeTag 0 uri with
            | none => none
            | some u => finish (.tagDirective handle u) c
    else none

/-- Characters that a plain scalar may not start with, at least not before a blank. -/
def isIndicator (c : Char) : Bool :=
  ['-', '?', ':', ',', '[', ']', '\x7b', '\x7d', '#', '&', '*', '!', '|', '>', '\'', '"', '%', '@',
   Char.ofNat 0x60].contains c

/-- The stream ends or cannot be read within the next `n` characters. -/
def isCutWithin (s : Scan) (n : Nat) : Bool := s.cut && (s.cursor.rest.drop (n - 1)).isEmpty

/-- The token at the cursor, which stands on a character. -/
def token (s : Scan) (x : Char) (rest : List Char) : Option Scan :=
  if s.cursor.column == 0 && x == '%' then s.directive
  else if s.cursor.atDocumentIndicator '-' then s.boundary .documentStart
  else if s.cursor.atDocumentIndicator '.' then s.boundary .documentEnd
  else if x == '[' then (s.openFlow .flowSequenceStart).map skipComment
  else if x == '\x7b' then (s.openFlow .flowMappingStart).map skipComment
  else if x == ']' then (s.closeFlow .flowSequenceEnd).map skipComment
  else if x == '\x7d' then (s.closeFlow .flowMappingEnd).map skipComment
  else if x == ',' then s.flowEntry.map skipComment
  else if x == '-' && atBlankOrEnd rest then
    s.blockIndicator .blockSequenceStart .blockEntry true
  else if x == '?' && (s.inFlow || atBlankOrEnd rest) then
    (s.blockIndicator .blockMappingStart .key (!s.inFlow)).map skipComment
  else if x == ':' && (s.inFlow || atBlankOrEnd rest) then s.valueIndicator.map skipComment
  else if x == '*' then (s.anchorName .aliased).map skipComment
  else if x == '&' then (s.anchorName .anchor).map skipComment
  else if x == '!' then s.tagToken.map skipComment
  else if x == '|' && !s.inFlow then s.blockToken false
  else if x == '>' && !s.inFlow then s.blockToken true
  else if x == '\'' then (s.quotedToken true).map skipComment
  else if x == '"' then (s.quotedToken false).map skipComment
  else
    let startsPlain := !(isBlank x || isIndicator x) ||
      (x == '-' && !rest.head?.any isBlank) ||
      (!s.inFlow && (x == '?' || x == ':') && !atBlankOrEnd rest)
    if startsPlain then s.plainToken else none

/-- The next token; none at a fault. -/
def next (s : Scan) : Option Scan :=
  let s := skipToToken (s.cursor.rest.length + 1) s
  if s.isCutWithin 4 then none
  else
    let s := closeBlocks (some s.cursor.column) s
    match s.cursor.rest with
    | [] => s.streamEnd
    | x :: rest => (s.token x rest).bind fun s => if s.isCutWithin 1 then none else some s

/-- The tokens when scanning cannot go on. -/
def tokensAtFault (s : Scan) : List Token :=
  let done := match s.unsettled? with
    | some n => s.done.set (s.count - 1 - n) .unsettled
    | none => s.done
  (Token.fault :: done).reverse

/-- The tokens up to the end of the stream or a fault. -/
def run : Nat → Scan → List Token
  | 0, s => s.tokensAtFault
  | fuel + 1, s =>
    match s.next with
    | none => s.tokensAtFault
    | some s =>
      match s.done with
      | .streamEnd :: _ => s.done.reverse
      | _ => run fuel s

end Scan

/-! ## Streams

A stream is read piece by piece. A piece that holds bytes which write no character, or a character
that no stream may hold, is a fault only when scanning comes to it. -/

/-- How the characters of a stream are written. -/
inductive Encoding where
  | utf8
  | pairs (big : Bool)

/-- What stands at the start of some bytes. -/
inductive Lead where
  | char (c : Char) (width : Nat)
  /-- More bytes are needed. -/
  | incomplete
  | bad

/-- The lead when the bytes start with `width` ones that write the character of `n`. -/
def Lead.ofCode (n width : Nat) : Lead :=
  if n.isValidChar && isAllowed (Char.ofNat n) then .char (Char.ofNat n) width else .bad

/-- What stands at the start of bytes of a stream. -/
def Encoding.lead : Encoding → Text → Lead
  | .utf8, t =>
    match t.head?.bind fun b => charWidth? b.toNat with
    | none => .bad
    | some width =>
      let bytes := t.take width
      if bytes.length < width then .incomplete
      else match Text.isUtf8 bytes, Text.chars bytes with
        | true, c :: _ => Lead.ofCode c.toNat width
        | _, _ => .bad
  | .pairs big, a :: b :: rest =>
    let unit (a b : UInt8) : Nat :=
      if big then 256 * a.toNat + b.toNat else 256 * b.toNat + a.toNat
    let hi := unit a b
    if hi < 0xD800 || 0xDC00 ≤ hi then Lead.ofCode hi 2
    else match rest with
      | c :: d :: _ =>
        let lo := unit c d
        if 0xDC00 ≤ lo && lo < 0xE000 then
          Lead.ofCode (0x10000 + (hi - 0xD800) * 0x400 + (lo - 0xDC00)) 4
        else .bad
      | _ => .incomplete
  | .pairs _, _ => .incomplete

/-- The characters of a piece, the last one first, and the bytes behind them that do not complete
one; none when the piece is bad. -/
def charsOfPiece (e : Encoding) : Nat → List Char → Text → Option (List Char × Text)
  | 0, done, t => some (done, t)
  | _ + 1, done, [] => some (done, [])
  | fuel + 1, done, t =>
    match e.lead t with
    | .char c width => charsOfPiece e fuel (c :: done) (t.drop width)
    | .incomplete => some (done, t)
    | .bad => none

/-- How many bytes a piece has. -/
def pieceSize : Nat := 512

/-- The characters of a stream up to its end or to a fault, and whether there is a fault. The next
piece takes `room` bytes and starts with `left`; `done` are the characters so far, the last first. -/
def charsUpTo (e : Encoding) : Nat → Nat → List Char → Text → Text → List Char × Bool
  | 0, _, done, _, _ => (done.reverse, true)
  | fuel + 1, room, done, left, t =>
    match charsOfPiece e room done (left ++ t.take (room - left.length)) with
    | none => (done.reverse, true)
    | some (done, left') =>
      let t := t.drop (room - left.length)
      if t.isEmpty then (done.reverse, !left'.isEmpty)
      else charsUpTo e fuel pieceSize done left' t

/-- The characters of a stream up to its end or to a fault, and whether there is a fault. A byte order
mark opens a stream in UTF-16 and may open one in UTF-8. -/
def charsOf (source : Text) : List Char × Bool :=
  let fuel := source.length + 1
  let plain (mark : Nat) (t : Text) : List Char × Bool :=
    let cs := Text.chars t
    if Text.isUtf8 t && cs.all isAllowed then (cs, false)
    else charsUpTo .utf8 fuel (pieceSize - mark) [] [] t
  match source with
  | 0xFF :: 0xFE :: rest => charsUpTo (.pairs false) fuel (pieceSize - 2) [] [] rest
  | 0xFE :: 0xFF :: rest => charsUpTo (.pairs true) fuel (pieceSize - 2) [] [] rest
  | 0xEF :: 0xBB :: 0xBF :: rest => plain 3 rest
  | _ => plain 0 source

/-- The tokens of a stream up to its end or to a fault. -/
def tokens (source : Text) : List Token :=
  let (cs, cut) := charsOf source
  Scan.run (2 * cs.length + 8) { cursor := { rest := cs }, cut }

end LiteralAudit.Yaml
