import LiteralAudit.Text.Utf8

/-!
# Scalars

The three ways to write a scalar over several lines: in quotes, plain, and as a block behind `|` or
`>`. In the first two a single line break is folded to a blank; in a block the style decides.
-/

/-!
## Characters and tokens of YAML

A `Cursor` walks over the characters of a document and knows its line and column. Tokens carry the
scalars with their escapes and folds resolved.
-/

namespace LiteralAudit.Yaml

/-- How a scalar is written: as it is, in quotes, or as a block. Only a plain one may be anything but a
string. -/
inductive Style where
  | plain
  | quoted
  deriving Repr, DecidableEq, BEq, Inhabited

inductive Token where
  | streamEnd
  | versionDirective (major minor : Nat)
  | tagDirective (handle : List Char) (expansion : Text)
  | documentStart
  | documentEnd
  | blockSequenceStart
  | blockMappingStart
  | blockEnd
  | flowSequenceStart
  | flowSequenceEnd
  | flowMappingStart
  | flowMappingEnd
  | blockEntry
  | flowEntry
  | key
  | value
  | anchor (name : List Char)
  | aliased (name : List Char)
  | tag (handle : List Char) (suffix : Text)
  | scalar (style : Style) (text : List Char)
  /-- A token that may start a key; scanning could not go on before that was settled. -/
  | unsettled
  /-- Scanning could not go on here. -/
  | fault
  deriving Repr, DecidableEq, BEq, Inhabited

/-! ## Character classes -/

def isBreak (c : Char) : Bool :=
  c == '\r' || c == '\n' || c == '\u0085' || c == '\u2028' || c == '\u2029'

def isBlank (c : Char) : Bool := c == ' ' || c == '\t'

/-- A character of names of anchors and directives. -/
def isNameChar (c : Char) : Bool := c.isAlphanum || c == '_' || c == '-'

/-- A character that a document may hold. -/
def isAllowed (c : Char) : Bool :=
  let n := c.toNat
  n == 9 || n == 10 || n == 13 || (0x20 ≤ n && n ≤ 0x7E) || n == 0x85 || (0xA0 ≤ n && n ≤ 0xD7FF) ||
    (0xE000 ≤ n && n ≤ 0xFFFD) || 0x10000 ≤ n

/-- The text goes on with a blank, a line break or its end. -/
def atBlankOrEnd : List Char → Bool
  | [] => true
  | c :: _ => isBlank c || isBreak c

/-- The text goes on with a line break or its end. -/
def atBreakOrEnd : List Char → Bool
  | [] => true
  | c :: _ => isBreak c

/-! ## Cursors -/

structure Cursor where
  rest : List Char
  line : Nat := 0
  column : Nat := 0
  index : Nat := 0
  deriving Inhabited

namespace Cursor

/-- The cursor behind one character of the same line. -/
def skip (c : Cursor) : Cursor :=
  { c with rest := c.rest.drop 1, column := c.column + 1, index := c.index + 1 }

def skipN (n : Nat) (c : Cursor) : Cursor :=
  { c with rest := c.rest.drop n, column := c.column + n, index := c.index + n }

/-- The cursor behind a line break. -/
def skipBreak (c : Cursor) : Cursor :=
  let n := match c.rest with
    | '\r' :: '\n' :: _ => 2
    | _ => 1
  { rest := c.rest.drop n, line := c.line + 1, column := 0, index := c.index + n }

/-- What a line break adds to a scalar. -/
def breakText (c : Cursor) : List Char :=
  match c.rest with
  | b :: _ => if b == '\u2028' || b == '\u2029' then [b] else ['\n']
  | [] => []

/-- The cursor behind the characters of one line that satisfy `p`. -/
def skipWhile (p : Char → Bool) (c : Cursor) : Cursor :=
  c.skipN (c.rest.takeWhile p).length

/-- A document indicator, `---` or `...`, starts the line. -/
def atDocumentIndicator (c : Cursor) (mark : Char) : Bool :=
  c.column == 0 &&
    match c.rest with
    | x :: y :: z :: rest => x == mark && y == mark && z == mark && atBlankOrEnd rest
    | _ => false

def atDocumentBoundary (c : Cursor) : Bool :=
  c.atDocumentIndicator '-' || c.atDocumentIndicator '.'

end Cursor

end LiteralAudit.Yaml

namespace LiteralAudit.Yaml

/-- Blanks and line breaks between two parts of a scalar. -/
structure Gap where
  /-- The blanks before the first line break. -/
  blanks : List Char := []
  /-- The first line break, if there is one. -/
  first : List Char := []
  /-- The line breaks behind it. -/
  more : List Char := []
  /-- A line break was met. -/
  broken : Bool := false

namespace Gap

/-- What a gap adds to a scalar: one line break alone folds to a blank. -/
def text (g : Gap) : List Char :=
  if !g.broken then g.blanks
  else if g.first == ['\n'] then (if g.more.isEmpty then [' '] else g.more)
  else g.first ++ g.more

/-- The gap at a cursor. In a plain scalar a tab may not indent a line less than `indent`. -/
def scan (indent? : Option Nat) : Nat → Gap → Cursor → Option (Gap × Cursor)
  | 0, g, c => some (g, c)
  | fuel + 1, g, c =>
    match c.rest with
    | [] => some (g, c)
    | b :: _ =>
      if isBlank b then
        if g.broken then
          if b == '\t' && indent?.any (c.column < ·) then none
          else scan indent? fuel g c.skip
        else scan indent? fuel { g with blanks := g.blanks ++ [b] } c.skip
      else if isBreak b then
        let g := if g.broken then { g with more := g.more ++ c.breakText }
          else { blanks := [], first := c.breakText, more := [], broken := true }
        scan indent? fuel g c.skipBreak
      else some (g, c)

end Gap

/-! ## Quoted scalars -/

/-- The character that an escape letter stands for. -/
def escaped? (c : Char) : Option Char :=
  match c with
  | '0' => some (Char.ofNat 0)
  | 'a' => some (Char.ofNat 7)
  | 'b' => some (Char.ofNat 8)
  | 't' | '\t' => some '\t'
  | 'n' => some '\n'
  | 'v' => some (Char.ofNat 11)
  | 'f' => some (Char.ofNat 12)
  | 'r' => some '\r'
  | 'e' => some (Char.ofNat 27)
  | ' ' => some ' '
  | '"' => some '"'
  | '\'' => some '\''
  | '\\' => some '\\'
  | 'N' => some '\u0085'
  | '_' => some '\u00A0'
  | 'L' => some '\u2028'
  | 'P' => some '\u2029'
  | _ => none

/-- How many hexadecimal digits follow an escape letter. -/
def escapeWidth? (c : Char) : Option Nat :=
  match c with
  | 'x' => some 2
  | 'u' => some 4
  | 'U' => some 8
  | _ => none

def hexDigit? (c : Char) : Option Nat :=
  if c.isDigit then some (c.toNat - 48)
  else if 'a' ≤ c && c ≤ 'f' then some (c.toNat - 87)
  else if 'A' ≤ c && c ≤ 'F' then some (c.toNat - 55)
  else none

/-- The character that hexadecimal digits write. -/
def hexChar? (digits : List Char) : Option Char :=
  let n? := digits.foldl (fun n? d =>
    match n?, hexDigit? d with
    | some n, some d => some (16 * n + d)
    | _, _ => none) (some 0)
  n?.bind fun n => if n.isValidChar then some (Char.ofNat n) else none

/-- How a run of non-blank characters in quotes ends. -/
inductive QuotedStop where
  | closed
  | gap (escapedBreak : Bool)

/-- Characters in quotes up to the closing one, a blank or a line break; those read so far are in
reverse. -/
def quotedRun (single : Bool) :
    Nat → List Char → Cursor → Option (List Char × Cursor × QuotedStop)
  | 0, _, _ => none
  | fuel + 1, done, c =>
    match c.rest with
    | [] => some (done, c, .gap false)
    | x :: rest =>
      if isBlank x || isBreak x then some (done, c, .gap false)
      else if single && x == '\'' then
        match rest with
        | '\'' :: _ => quotedRun single fuel ('\'' :: done) (c.skipN 2)
        | _ => some (done, c.skip, .closed)
      else if !single && x == '"' then some (done, c.skip, .closed)
      else if !single && x == '\\' then
        match rest with
        | [] => none
        | e :: digits =>
          if isBreak e then some (done, c.skip.skipBreak, .gap true)
          else match escaped? e, escapeWidth? e with
            | some ch, _ => quotedRun single fuel (ch :: done) (c.skipN 2)
            | none, some width =>
              let ds := digits.take width
              if ds.length < width then none
              else match hexChar? ds with
                | some ch => quotedRun single fuel (ch :: done) (c.skipN (2 + width))
                | none => none
            | none, none => none
      else quotedRun single fuel (x :: done) c.skip

/-- A scalar in quotes, behind the opening one. -/
def quotedScalar? (single : Bool) : Nat → List Char → Cursor → Option (List Char × Cursor)
  | 0, _, _ => none
  | fuel + 1, done, c =>
    if c.atDocumentBoundary || c.rest.isEmpty then none
    else match quotedRun single (c.rest.length + 1) done c with
      | none => none
      | some (done, c, .closed) => some (done.reverse, c)
      | some (done, c, .gap escapedBreak) =>
        match Gap.scan none (c.rest.length + 1) { broken := escapedBreak } c with
        | none => none
        | some (g, c) => quotedScalar? single fuel (g.text.reverse ++ done) c

/-! ## Plain scalars -/

/-- Whether a plain scalar ends before a character; inside brackets more characters end it. -/
def endsPlain (inFlow : Bool) (c : Char) (rest : List Char) : Bool :=
  (c == ':' && atBlankOrEnd rest) ||
    (inFlow && (c == ',' || c == '?' || c == '[' || c == ']' || c == '\x7b' || c == '\x7d'))

/-- Characters of a plain scalar up to one that ends it or a blank. -/
def plainRun (inFlow : Bool) : Nat → List Char → Cursor → List Char × Cursor
  | 0, done, c => (done, c)
  | fuel + 1, done, c =>
    match c.rest with
    | [] => (done, c)
    | x :: rest =>
      if isBlank x || isBreak x || endsPlain inFlow x rest then (done, c)
      else plainRun inFlow fuel (x :: done) c.skip

/-- A plain scalar. `gap` stands before the next part; the result says whether the scalar ended behind
a line break. -/
def plainScalar? (inFlow : Bool) (indent : Nat) :
    Nat → List Char → Gap → Cursor → Option (List Char × Cursor × Bool)
  | 0, _, _, _ => none
  | fuel + 1, done, gap, c =>
    let stop : Option (List Char × Cursor × Bool) := some (done.reverse, c, gap.broken)
    if c.atDocumentBoundary || c.rest.head? == some '#' then stop
    else
      let (run, c) := plainRun inFlow (c.rest.length + 1) [] c
      let done := if run.isEmpty then done else run ++ gap.text.reverse ++ done
      let gap := if run.isEmpty then gap else {}
      match c.rest with
      | [] => some (done.reverse, c, gap.broken)
      | x :: _ =>
        if !(isBlank x || isBreak x) then some (done.reverse, c, gap.broken)
        else match Gap.scan (some indent) (c.rest.length + 1) gap c with
          | none => none
          | some (gap, c) =>
            if !inFlow && c.column < indent then some (done.reverse, c, gap.broken)
            else plainScalar? inFlow indent fuel done gap c

/-! ## Block scalars -/

/-- What becomes of the line breaks at the end of a block. -/
inductive Chomping where
  | strip
  | clip
  | keep
  deriving DecidableEq

/-- The indicators behind `|` or `>`: chomping and indentation, in either order. -/
def blockHeader? (c : Cursor) : Option (Chomping × Option Nat × Cursor) :=
  let chomping? (x : Char) : Option Chomping :=
    if x == '+' then some .keep else if x == '-' then some .strip else none
  let indent (c : Cursor) : Option (Option Nat × Cursor) :=
    match c.rest with
    | d :: _ =>
      if d == '0' then none
      else if d.isDigit then some (some (d.toNat - 48), c.skip)
      else some (none, c)
    | [] => some (none, c)
  match c.rest with
  | [] => some (.clip, none, c)
  | x :: _ =>
    match chomping? x with
    | some ch => (indent c.skip).map fun (n?, c) => (ch, n?, c)
    | none =>
      match indent c with
      | none => none
      | some (none, c) => some (.clip, none, c)
      | some (some n, c) =>
        match c.rest.head?.bind chomping? with
        | some ch => some (ch, some n, c.skip)
        | none => some (.clip, some n, c)

/-- The empty lines before a line of a block, and its indentation, which `indent` fixes unless it is
0. `widest` is the greatest indentation met. -/
def blockBreaks (indent : Nat) :
    Nat → Nat → List Char → Cursor → Option (Nat × List Char × Cursor)
  | 0, _, _, _ => none
  | fuel + 1, widest, breaks, c =>
    let spaces := (c.rest.takeWhile (· == ' ')).length
    let c := c.skipN (if indent == 0 then spaces else min spaces (indent - c.column))
    let widest := max widest c.column
    match c.rest with
    | x :: _ =>
      if x == '\t' && (indent == 0 || c.column < indent) then none
      else if isBreak x then blockBreaks indent fuel widest (breaks ++ c.breakText) c.skipBreak
      else some (widest, breaks, c)
    | [] => some (widest, breaks, c)

/-- The lines of a block, which are indented by `indent`. `lead` is the line break behind the last one
and `breaks` are the empty lines behind that. -/
def blockLines (folded : Bool) (indent : Nat) :
    Nat → List Char → Bool → List Char → List Char → Cursor →
      Option (List Char × List Char × List Char × Cursor)
  | 0, _, _, _, _, _ => none
  | fuel + 1, done, blankBefore, lead, breaks, c =>
    if c.column != indent || c.rest.isEmpty then some (done, lead, breaks, c)
    else
      let blankHere := c.rest.head?.any isBlank
      let folds := folded && !blankBefore && !blankHere && lead == ['\n']
      let joint := (if folds then (if breaks.isEmpty then [' '] else []) else lead) ++ breaks
      let line := c.rest.takeWhile (!isBreak ·)
      let c := c.skipN line.length
      let done := line.reverse ++ joint.reverse ++ done
      let lead := c.breakText
      let c := if c.rest.isEmpty then c else c.skipBreak
      match blockBreaks indent (c.rest.length + 1) 0 [] c with
      | none => none
      | some (_, breaks, c) => blockLines folded indent fuel done blankHere lead breaks c

/-- A block scalar behind its `|` or `>`, inside a block indented by `outer` if there is one. -/
def blockScalar? (folded : Bool) (outer? : Option Nat) (c : Cursor) :
    Option (List Char × Cursor) :=
  match blockHeader? c with
  | none => none
  | some (chomping, increment?, c) =>
    let c := c.skipWhile isBlank
    let c := if c.rest.head? == some '#' then c.skipWhile (!isBreak ·) else c
    if !atBreakOrEnd c.rest then none
    else
      let c := if c.rest.isEmpty then c else c.skipBreak
      let given := match increment? with
        | some n => outer?.getD 0 + n
        | none => 0
      match blockBreaks given (c.rest.length + 1) 0 [] c with
      | none => none
      | some (widest, breaks, c) =>
        let least := match outer? with
          | some n => n + 1
          | none => 1
        let indent := if given == 0 then max widest least else given
        match blockLines folded indent (c.rest.length + 2) [] false [] breaks c with
        | none => none
        | some (done, lead, breaks, c) =>
          let tail := match chomping with
            | .strip => []
            | .clip => lead
            | .keep => lead ++ breaks
          some (done.reverse ++ tail, c)

end LiteralAudit.Yaml
