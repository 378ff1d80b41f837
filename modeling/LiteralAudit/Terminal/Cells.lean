import LiteralAudit.Unicode.Category
import LiteralAudit.Unicode.Grapheme

/-!
# Text on a terminal

A terminal shows a text in cells. Printable ASCII takes one cell each, a grapheme cluster takes as many
as it is wide, and control characters and escape sequences take none. `Terminal.pieces` cuts a text
into these parts with the automaton that terminals use for escape sequences; `width`, `clip` and `wrap`
count, cut and fold a text by cells.
-/

namespace LiteralAudit.Terminal

open Unicode

/-! ## The automaton for escape sequences -/

/-- Where in an escape sequence a reader is. -/
inductive Place where
  | ground
  | escape
  | escapeMiddle
  | controlStart
  | controlParameters
  | controlMiddle
  | deviceStart
  | deviceParameters
  | deviceMiddle
  | deviceString
  | systemString
  | otherString
  deriving Repr, DecidableEq, BEq, Inhabited

/-- What a byte is for a reader at some place. -/
inductive Role where
  /-- A printable ASCII character. -/
  | printed
  /-- A control character. -/
  | control
  /-- The first byte of a character beyond ASCII. -/
  | cluster
  /-- A part of an escape sequence, or a byte without a meaning. -/
  | silent
  deriving Repr, DecidableEq, BEq, Inhabited

def between (lo hi b : UInt8) : Bool := lo ≤ b && b ≤ hi

/-- The control characters that keep the reader where it is. -/
def isPlainControl (b : UInt8) : Bool := b ≤ 0x17 || b == 0x19 || between 0x1C 0x1F b

/-- What a byte does wherever it occurs, unless a place has a rule of its own for it. -/
def everywhere (b : UInt8) : Place × Role :=
  if b == 0x1B then (.escape, .silent)
  else if b == 0x90 then (.deviceStart, .silent)
  else if b == 0x9B then (.controlStart, .silent)
  else if b == 0x9D then (.systemString, .silent)
  else if b == 0x98 || b == 0x9E || b == 0x9F then (.otherString, .silent)
  else if b == 0x18 || b == 0x1A || between 0x80 0x9C b then (.ground, .control)
  else if between 0xC2 0xF4 b then (.ground, .cluster)
  else (.ground, .silent)

/-- The next place after a byte, and what the byte was. -/
def step (p : Place) (b : UInt8) : Place × Role :=
  match p with
  | .ground =>
    if between 0x20 0x7E b then (.ground, .printed)
    else if isPlainControl b || b == 0x7F then (.ground, .control)
    else everywhere b
  | .escape =>
    if isPlainControl b then (.escape, .control)
    else if b == 0x7F then (.escape, .silent)
    else if between 0x20 0x2F b then (.escapeMiddle, .silent)
    else if b == 'X' || b == '^' || b == '_' then (.otherString, .silent)
    else if b == 'P' then (.deviceStart, .silent)
    else if b == '[' then (.controlStart, .silent)
    else if b == ']' then (.systemString, .silent)
    else everywhere b
  | .escapeMiddle =>
    if isPlainControl b then (.escapeMiddle, .control)
    else if between 0x20 0x2F b || b == 0x7F then (.escapeMiddle, .silent)
    else everywhere b
  | .controlStart =>
    if isPlainControl b then (.controlStart, .control)
    else if b == 0x7F then (.controlStart, .silent)
    else if between 0x20 0x2F b then (.controlMiddle, .silent)
    else if between 0x30 0x3F b then (.controlParameters, .silent)
    else everywhere b
  | .controlParameters =>
    if isPlainControl b then (.controlParameters, .control)
    else if between 0x30 0x3F b || b == 0x7F then (.controlParameters, .silent)
    else if between 0x20 0x2F b then (.controlMiddle, .silent)
    else everywhere b
  | .controlMiddle =>
    if isPlainControl b then (.controlMiddle, .control)
    else if between 0x20 0x2F b || b == 0x7F then (.controlMiddle, .silent)
    else everywhere b
  | .deviceStart =>
    if between 0x08 0x0D b || b == 0x1B || between 0x40 0x7E b then (.deviceString, .silent)
    else if isPlainControl b || b == 0x7F then (.deviceStart, .silent)
    else if between 0x20 0x2F b then (.deviceMiddle, .silent)
    else if between 0x30 0x3F b then (.deviceParameters, .silent)
    else everywhere b
  | .deviceParameters =>
    if isPlainControl b || between 0x30 0x3F b || b == 0x7F then (.deviceParameters, .silent)
    else if between 0x20 0x2F b then (.deviceMiddle, .silent)
    else if between 0x40 0x7E b then (.deviceString, .silent)
    else everywhere b
  | .deviceMiddle =>
    if isPlainControl b || between 0x20 0x2F b || b == 0x7F then (.deviceMiddle, .silent)
    else if between 0x30 0x7E b then (.deviceString, .silent)
    else everywhere b
  | .deviceString =>
    if b == 0x1B then (.escape, .silent)
    else if b == 0x9C || b == 0x18 || b == 0x1A then (.ground, .silent)
    else (.deviceString, .silent)
  | .systemString =>
    if b == 0x1B then (.escape, .silent)
    else if b == 0x07 || b == 0x9C || b == 0x18 || b == 0x1A then (.ground, .silent)
    else (.systemString, .silent)
  | .otherString =>
    if b == 0x9C || b == 0x18 || b == 0x1A then (.ground, .silent)
    else if isPlainControl b || between 0x20 0x7F b then (.otherString, .silent)
    else everywhere b

/-! ## Pieces -/

/-- A part of a text as a terminal takes it. -/
inductive Piece where
  | cluster (bytes : Text) (width : Nat)
  | printed (b : UInt8)
  | control (b : UInt8)
  | silent (b : UInt8)
  deriving Repr, DecidableEq, BEq, Inhabited

/-- Auxiliary to `pieces`. -/
def piecesFrom (remember : Bool) (p : Place) (ahead? : Option Lookahead) : Text → List Piece
  | [] => []
  | b :: rest =>
    match step p b with
    | (_, .cluster) =>
      let c := Cluster.first (if remember then ahead? else none) b rest
      .cluster (b :: rest.take (c.size - 1)) c.width ::
        piecesFrom remember .ground (some c.ahead) (rest.drop (c.size - 1))
    | (q, .printed) => .printed b :: piecesFrom remember q ahead? rest
    | (q, .control) => .control b :: piecesFrom remember q ahead? rest
    | (q, .silent) => .silent b :: piecesFrom remember q ahead? rest
termination_by t => t.length

/-- The pieces of a text. With `remember`, a cluster is read with what the cluster before it left,
even if other pieces lie between them. -/
def pieces (remember : Bool) (t : Text) : List Piece := piecesFrom remember .ground none t

def Piece.width : Piece → Nat
  | .cluster _ n => n
  | .printed _ => 1
  | .control _ | .silent _ => 0

def Piece.bytes : Piece → Text
  | .cluster t _ => t
  | .printed b | .control b | .silent b => [b]

/-- The cells that a line takes. -/
def width (t : Text) : Nat := (pieces false t).foldl (fun n p => n + p.width) 0

/-- The lines of a text; there is always one. -/
def lines (t : Text) : List Text := Text.splitOn '\n' t

/-- The cells of the widest line. -/
def widest (ls : List Text) : Nat := (ls.map width).foldl max 0

/-! ## Cutting -/

/-- Auxiliary to `clip`: `room` cells are left, or none once a piece did not fit. -/
def clipFrom : Option Nat → List Piece → Text
  | _, [] => []
  | none, p :: rest =>
    match p with
    | .control b | .silent b => b :: clipFrom none rest
    | _ => clipFrom none rest
  | some room, p :: rest =>
    if p.width ≤ room then p.bytes ++ clipFrom (some (room - p.width)) rest
    else clipFrom none rest

/-- A line cut to a number of cells. What takes no cells is kept behind the cut, so that a style is
switched off again. -/
def clip (room : Nat) (t : Text) : Text :=
  if width t ≤ room then t else clipFrom (some room) (pieces false t)

/-! ## Folding -/

/-- A text being folded: what is done, the blanks behind it and the word behind them, all in reverse. -/
structure Fold where
  done : Text := []
  blanks : Text := []
  word : Text := []
  /-- The cells of the last line that is done. -/
  used : Nat := 0
  /-- The cells of the word. -/
  wordWidth : Nat := 0
  deriving Repr, DecidableEq, BEq, Inhabited

namespace Fold

def addBlanks (f : Fold) : Fold :=
  { f with done := f.blanks ++ f.done, used := f.used + f.blanks.length, blanks := [] }

def addWord (f : Fold) : Fold :=
  if f.word.isEmpty then f
  else
    let f := f.addBlanks
    { f with done := f.word ++ f.done, used := f.used + f.wordWidth, word := [], wordWidth := 0 }

/-- A new line; the blanks before it go. -/
def addBreak (f : Fold) : Fold :=
  { f with done := ('\n' : UInt8) :: f.done, used := 0, blanks := [] }

/-- The blanks at the end of a line stay if they fit. -/
def settleBlanks (limit : Nat) (f : Fold) : Fold :=
  if f.wordWidth == 0 then
    if f.used + f.blanks.length > limit then { f with used := 0, blanks := [] }
    else { f with done := f.blanks ++ f.done, blanks := [] }
  else f

def addBlank (f : Fold) (bytes : Text) : Fold :=
  let f := f.addWord
  { f with blanks := bytes.reverse ++ f.blanks }

def growWord (f : Fold) (bytes : Text) (width : Nat) : Fold :=
  { f with word := bytes.reverse ++ f.word, wordWidth := f.wordWidth + width }

/-- Breaks the line before the word if the word does not fit on it. -/
def breakIfFull (limit : Nat) (f : Fold) : Fold :=
  if f.used + f.wordWidth + f.blanks.length > limit then f.addBreak else f

/-- One character that takes a cell or is a control character. -/
def addCharacter (limit : Nat) (f : Fold) (b : UInt8) : Fold :=
  let ch := Char.ofNat b.toNat
  if b == '\n' then (f.settleBlanks limit).addWord.addBreak
  else if isSpace ch then f.addBlank (Text.ofChar ch)
  else if b == '-' then
    let f := f.addBlanks
    if f.used + f.wordWidth ≥ limit then f.growWord [b] 1
    else
      let f := f.addWord
      { f with done := b :: f.done, used := f.used + 1 }
  else
    let f := if f.used == limit then f.addBreak else f
    let f := f.growWord (Text.ofChar ch) 1
    let f := if f.wordWidth == limit then f.addWord else f
    f.breakIfFull limit

def addCluster (limit : Nat) (f : Fold) (bytes : Text) (width : Nat) : Fold :=
  let ch? := bytes.runes.head?
  let blank := match ch? with
    | some r => r.char != Rune.replacement && isSpace r.char && r.char.toNat != 0xA0
    | none => false
  if blank then f.addBlank (Text.ofChar ((ch?.map (·.char)).getD ' '))
  else
    let f := if f.wordWidth + width > limit then f.addWord else f
    (f.growWord bytes width).breakIfFull limit

def add (limit : Nat) (f : Fold) : Piece → Fold
  | .cluster bytes width => f.addCluster limit bytes width
  | .printed b | .control b => f.addCharacter limit b
  | .silent b => { f with word := b :: f.word }

end Fold

/-- A text folded into lines of at most `limit` cells: between words where that is possible, behind a
hyphen, and within a word that is longer than a line. A limit below one folds nothing. -/
def wrap (limit : Int) (t : Text) : Text :=
  if limit < 1 then t
  else
    let n := limit.toNat
    let f : Fold := (pieces true t).foldl (Fold.add n) {}
    ((f.settleBlanks n).addWord).done.reverse

end LiteralAudit.Terminal

/-!
## Boxes of text

A box gives a text a shape on a terminal: it folds the text to a width, pads it, fills its lines up to
equal length and draws a border around them. Boxes stand beside each other (`beside`) or on top of
each other (`stacked`).
-/

namespace LiteralAudit.Terminal

/-- The characters of a border. -/
structure Border where
  horizontal : Text
  vertical : Text
  topLeft : Text
  topRight : Text
  bottomLeft : Text
  bottomRight : Text

namespace Border

def square : Border := ⟨"─", "│", "┌", "┐", "└", "┘"⟩

def rounded : Border := ⟨"─", "│", "╭", "╮", "╰", "╯"⟩

end Border

/-- The sides of a box that have a border. -/
inductive Sides where
  | none | top | bottom | all
  deriving Repr, DecidableEq, BEq, Inhabited

/-- The shape of a text. A size of zero is left open. -/
structure Box where
  width : Nat := 0
  height : Nat := 0
  maxWidth : Nat := 0
  maxHeight : Nat := 0
  /-- Blanks to the left and to the right of each line. -/
  padding : Nat := 0
  /-- The text stays on one line. -/
  oneLine : Bool := false
  border : Border := .square
  sides : Sides := .none

def blanks (n : Nat) : Text := List.replicate n (' ' : UInt8)

/-- Tabs as four blanks each. -/
def expandTabs (t : Text) : Text := Text.replaceAll "\t" "    " t

/-- Lines filled with blanks to the widest of them, and at least to `width`. -/
def fill (width : Nat) (ls : List Text) : List Text :=
  let target := max (widest ls) width
  ls.map fun l => l ++ blanks (target - Terminal.width l)

def unlines (ls : List Text) : Text := Text.join "\n" ls

namespace Box

/-- The lines of a text folded and padded to the shape of the box. -/
def body (b : Box) (t : Text) : List Text :=
  let t := Text.replaceAll "\r\n" "\n" (expandTabs t)
  let t := if b.oneLine then t.filter (fun (c : UInt8) => c != '\n') else t
  let t := if b.oneLine || b.width == 0 then t else wrap ((b.width : Int) - 2 * b.padding) t
  let ls := lines t
  let ls := if b.oneLine then ls else ls.map fun l => blanks b.padding ++ l ++ blanks b.padding
  let ls := ls ++ List.replicate (b.height - ls.length) []
  if ls.length == 1 && b.width == 0 then ls else fill b.width ls

/-- The lines with the border around them. -/
def framed (b : Box) (ls : List Text) : List Text :=
  let edge (left right : Text) : Text := left ++ Text.times (widest ls) b.border.horizontal ++ right
  match b.sides with
  | .none => ls
  | .top => edge [] [] :: ls
  | .bottom => ls ++ [edge [] []]
  | .all =>
    edge b.border.topLeft b.border.topRight ::
      ls.map (fun l => b.border.vertical ++ l ++ b.border.vertical) ++
      [edge b.border.bottomLeft b.border.bottomRight]

/-- A text in the shape of the box. -/
def render (b : Box) (t : Text) : Text :=
  let ls := b.body t
  let ls := if b.oneLine then ls else b.framed ls
  let ls := if b.maxWidth == 0 then ls else ls.map (clip b.maxWidth)
  unlines (if b.maxHeight == 0 then ls else ls.take b.maxHeight)

end Box

/-- Blocks of text side by side, with their tops on one line. -/
def beside (blocks : List Text) : Text :=
  match blocks with
  | [] => []
  | [only] => only
  | blocks =>
    let columns := blocks.map lines
    let rows := (columns.map List.length).foldl max 0
    unlines ((List.range rows).map fun i =>
      columns.flatMap fun ls =>
        let l := ls.getD i []
        l ++ blanks (widest ls - width l))

/-- Blocks of text on top of each other, filled to equal width. -/
def stacked (blocks : List Text) : Text :=
  match blocks with
  | [] => []
  | [only] => only
  | blocks => unlines (fill 0 (blocks.flatMap lines))

end LiteralAudit.Terminal
