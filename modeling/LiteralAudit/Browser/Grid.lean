import LiteralAudit.Terminal.Cells
import LiteralAudit.Text.Basic
import LiteralAudit.Unicode.Category

/-!
# A line of input

The search box of the browser: a line of at most `limit` characters with a cursor in it, edited with
the usual keys.
-/

namespace LiteralAudit

/-- A key: the name by which it is bound, and the characters that it types. -/
structure Key where
  name : Text
  typed : List Char := []
  deriving Repr, DecidableEq, BEq, Inhabited

/-- Whether a key is one of those named. -/
def Key.isAny (k : Key) (names : List String) : Bool := names.any fun n => Text.ofString n == k.name

theorem Key.isAny_append (k : Key) (ns ms : List String) :
    k.isAny (ns ++ ms) = (k.isAny ns || k.isAny ms) := List.any_append

/-- A line of input with a cursor in it. -/
structure LineEditor where
  value : List Char := []
  /-- How many characters stand before the cursor. -/
  cursor : Nat := 0
  deriving Repr, DecidableEq, BEq, Inhabited

namespace LineEditor

/-- How many characters the line holds at most. -/
def limit : Nat := 64

/-- What a typed character becomes: white space control characters become a blank, and other controls
and characters that could not be read are dropped. -/
def sanitize (typed : List Char) : List Char :=
  typed.filterMap fun c =>
    if c == '\uFFFD' then none
    else if c == '\n' || c == '\r' || c == '\t' then some ' '
    else if Unicode.categoryCc.mem c.toNat then none
    else some c

/-- The line with its cursor moved, within the line. -/
def moveTo (e : LineEditor) (n : Nat) : LineEditor := { e with cursor := min n e.value.length }

/-- The line with characters typed at the cursor, as many as there is room for. -/
def insert (e : LineEditor) (typed : List Char) : LineEditor :=
  let fresh := (sanitize typed).take (limit - e.value.length)
  { value := e.value.take e.cursor ++ fresh ++ e.value.drop e.cursor
    cursor := e.cursor + fresh.length }

/-- The line without the characters from `start` to `stop`, with the cursor where they were. -/
def erase (e : LineEditor) (start stop : Nat) : LineEditor :=
  { value := e.value.take start ++ e.value.drop stop, cursor := start }

def isBlankAt (e : LineEditor) (i : Nat) : Bool := ((e.value[i]?).map Unicode.isSpace).getD false

/-- Auxiliary to `wordStart`: the start of the word that ends before `i`. -/
def skipWordBack (e : LineEditor) : Nat → Nat
  | 0 => 0
  | i + 1 => if e.isBlankAt i then i + 1 else skipWordBack e i

/-- Auxiliary to `wordStart`: passes the blanks before `i`. -/
def skipBlanksBack (e : LineEditor) : Nat → Nat
  | 0 => 0
  | i + 1 => if e.isBlankAt i then skipBlanksBack e i else i + 1

/-- Where the word before the cursor starts. -/
def wordStart (e : LineEditor) : Nat := e.skipWordBack (e.skipBlanksBack e.cursor)

/-- Where erasing the word before the cursor starts: there, or at the start of the line when a single
blank stands before the word. -/
def eraseStart (e : LineEditor) : Nat := if e.wordStart ≤ 1 then 0 else e.wordStart

/-- Where the word behind the cursor ends. -/
def wordEnd (e : LineEditor) : Nat :=
  let behind := e.value.drop e.cursor
  let blanks := (behind.takeWhile Unicode.isSpace).length
  let word := ((behind.drop blanks).takeWhile fun c => !Unicode.isSpace c).length
  e.cursor + blanks + word

/-- The line after a key. A key that edits nothing types its characters. -/
def press (e : LineEditor) (k : Key) : LineEditor :=
  if k.isAny ["alt+backspace", "ctrl+w"] then e.erase e.eraseStart e.cursor
  else if k.isAny ["backspace", "ctrl+h"] then e.erase (e.cursor - 1) e.cursor
  else if k.isAny ["alt+left", "ctrl+left", "alt+b"] then e.moveTo e.wordStart
  else if k.isAny ["left", "ctrl+b"] then e.moveTo (e.cursor - 1)
  else if k.isAny ["alt+right", "ctrl+right", "alt+f"] then e.moveTo e.wordEnd
  else if k.isAny ["right", "ctrl+f"] then e.moveTo (e.cursor + 1)
  else if k.isAny ["home", "ctrl+a"] then e.moveTo 0
  else if k.isAny ["delete", "ctrl+d"] then e.erase e.cursor (e.cursor + 1)
  else if k.isAny ["end", "ctrl+e"] then e.moveTo e.value.length
  else if k.isAny ["ctrl+k"] then e.erase e.cursor e.value.length
  else if k.isAny ["ctrl+u"] then e.erase 0 e.cursor
  else if k.isAny ["alt+delete", "alt+d"] then e.erase e.cursor e.wordEnd
  else if k.isAny ["ctrl+v", "down", "ctrl+n", "up", "ctrl+p"] then e
  else e.insert k.typed

/-- The text of the line. -/
def text (e : LineEditor) : Text := Text.ofChars e.value

/-- The line as it is shown: a blank stands under a cursor at the end, and a word that says what it is
for in an empty line. -/
def view (e : LineEditor) : Text :=
  if e.value.isEmpty then "> search..."
  else if e.cursor < e.value.length then "> " ++ e.text
  else "> " ++ e.text ++ " "

end LineEditor

end LiteralAudit

/-!
## A table that scrolls

Rows of cells under a line of titles, one of them selected by a cursor. Only the rows near the cursor
are laid out (`first` to `last`), and a window of `height` lines shows a part of these, from line
`offset` on.
-/

namespace LiteralAudit

/-- A column of a table. -/
structure Column where
  title : Text
  width : Nat

structure Grid where
  columns : List Column
  rows : List (List Text) := []
  /-- The index of the selected row; negative once it was put into an empty table. -/
  cursor : Int := 0
  /-- The rows laid out: from `first` on and before `last`. -/
  first : Int := 0
  last : Int := 0
  /-- The number of laid out lines above the window. -/
  offset : Int := 0
  /-- The lines of the window. -/
  height : Int
  /-- The cells of the window, or zero before they are known. -/
  width : Int := 0

namespace Grid

/-- A number brought between two bounds; the upper one wins if they cross. -/
def within (low high v : Int) : Int := min (max v low) high

def count (g : Grid) : Int := g.rows.length

/-! ## The window -/

/-- The number of lines laid out; an empty layout has one empty line. -/
def laidOut (g : Grid) : Int := max 1 (g.last - g.first)

/-- The greatest offset that still fills the window. -/
def maxOffset (g : Grid) : Int := max 0 (g.laidOut - g.height)

def scrollTo (g : Grid) (n : Int) : Grid := { g with offset := within 0 g.maxOffset n }

/-- Lays out the rows around the cursor, and scrolls back if the window has left them. -/
def layOut (g : Grid) : Grid :=
  let g := { g with
    first := if g.cursor ≥ 0 then within 0 g.cursor (g.cursor - g.height) else 0
    last := within g.cursor g.count (g.cursor + g.height) }
  if g.offset > g.laidOut - 1 then g.scrollTo g.maxOffset else g

@[simp] theorem rows_scrollTo (g : Grid) (n : Int) : (g.scrollTo n).rows = g.rows := rfl

@[simp] theorem cursor_scrollTo (g : Grid) (n : Int) : (g.scrollTo n).cursor = g.cursor := rfl

@[simp] theorem rows_layOut (g : Grid) : g.layOut.rows = g.rows := by
  simp only [layOut]
  split <;> split <;> rfl

@[simp] theorem cursor_layOut (g : Grid) : g.layOut.cursor = g.cursor := by
  simp only [layOut]
  split <;> split <;> rfl

/-! ## Moving -/

/-- Puts the cursor on a row, or on the nearest one. -/
def select (g : Grid) (n : Int) : Grid := { g with cursor := within 0 (g.count - 1) n }.layOut

def moveUp (g : Grid) (n : Int) : Grid :=
  let g := { g with cursor := within 0 (g.count - 1) (g.cursor - n) }
  let g :=
    if g.first == 0 then g.scrollTo (within 0 g.cursor g.offset)
    else if g.first < g.height then
      { g with offset := within 0 g.height (within 0 g.cursor (g.offset + n)) }
    else if g.offset ≥ 1 then { g with offset := within 1 g.height (g.offset + n) }
    else g
  g.layOut

def moveDown (g : Grid) (n : Int) : Grid :=
  let g := { g with cursor := within 0 (g.count - 1) (g.cursor + n) }.layOut
  if g.last == g.count && g.offset > 0 then g.scrollTo (within 1 g.height (g.offset - n))
  else if g.cursor > Int.tdiv (g.last - g.first) 2 && g.offset > 0 then
    g.scrollTo (within 1 g.cursor (g.offset - n))
  else if g.offset > 1 then g
  else if g.cursor > g.offset + g.height - 1 then g.scrollTo (within 0 1 (g.offset + 1))
  else g

/-- The keys that move the cursor. -/
def moveKeys : List String :=
  ["up", "k"] ++ ["down", "j"] ++ ["b", "pgup"] ++ ["f", "pgdown", " "] ++ ["u", "ctrl+u"] ++
    ["d", "ctrl+d"] ++ ["home", "g"] ++ ["end", "G"]

/-- The table after a key: by lines, pages, half pages, or to an end. -/
def press (g : Grid) (k : Key) : Grid :=
  if k.isAny ["up", "k"] then g.moveUp 1
  else if k.isAny ["down", "j"] then g.moveDown 1
  else if k.isAny ["b", "pgup"] then g.moveUp g.height
  else if k.isAny ["f", "pgdown", " "] then g.moveDown g.height
  else if k.isAny ["u", "ctrl+u"] then g.moveUp (Int.tdiv g.height 2)
  else if k.isAny ["d", "ctrl+d"] then g.moveDown (Int.tdiv g.height 2)
  else if k.isAny ["home", "g"] then g.moveUp g.cursor
  else if k.isAny ["end", "G"] then g.moveDown g.count
  else g

/-- Other rows, with the cursor where it was. -/
def setRows (g : Grid) (rows : List (List Text)) : Grid := { g with rows := rows }.layOut

/-- Another size; `height` includes the two lines of the titles. -/
def resize (g : Grid) (width height : Int) : Grid :=
  { { g with width := width }.layOut with height := height - 2 }.layOut

/-! ## What moves -/

/-- The cursor is brought into the range of the rows, which puts it before them when there are none. -/
def Clamped (g : Grid) (cursor : Int) : Prop := ∃ n, cursor = within 0 (g.count - 1) n

@[simp] theorem rows_select (g : Grid) (n : Int) : (g.select n).rows = g.rows := by simp [select]

theorem cursor_select (g : Grid) (n : Int) : (g.select n).cursor = within 0 (g.count - 1) n := by
  simp [select]

@[simp] theorem rows_setRows (g : Grid) (rows : List (List Text)) : (g.setRows rows).rows = rows := by
  simp [setRows]

@[simp] theorem cursor_setRows (g : Grid) (rows : List (List Text)) :
    (g.setRows rows).cursor = g.cursor := by simp [setRows]

@[simp] theorem rows_resize (g : Grid) (width height : Int) : (g.resize width height).rows = g.rows := by
  simp [resize]

@[simp] theorem cursor_resize (g : Grid) (width height : Int) :
    (g.resize width height).cursor = g.cursor := by simp [resize]

@[simp] theorem rows_moveUp (g : Grid) (n : Int) : (g.moveUp n).rows = g.rows := by
  simp only [moveUp, rows_layOut]
  split
  · rfl
  · split
    · rfl
    · split <;> rfl

theorem cursor_moveUp (g : Grid) (n : Int) :
    (g.moveUp n).cursor = within 0 (g.count - 1) (g.cursor - n) := by
  simp only [moveUp, cursor_layOut]
  split
  · rfl
  · split
    · rfl
    · split <;> rfl

@[simp] theorem rows_moveDown (g : Grid) (n : Int) : (g.moveDown n).rows = g.rows := by
  unfold moveDown
  grind [rows_layOut, rows_scrollTo]

theorem cursor_moveDown (g : Grid) (n : Int) :
    (g.moveDown n).cursor = within 0 (g.count - 1) (g.cursor + n) := by
  unfold moveDown
  grind [cursor_layOut, cursor_scrollTo]

@[simp] theorem rows_press (g : Grid) (k : Key) : (g.press k).rows = g.rows := by
  unfold press
  grind [rows_moveUp, rows_moveDown]

theorem clamped_moveUp (g : Grid) (n : Int) : g.Clamped (g.moveUp n).cursor := ⟨_, g.cursor_moveUp n⟩

theorem clamped_moveDown (g : Grid) (n : Int) : g.Clamped (g.moveDown n).cursor :=
  ⟨_, g.cursor_moveDown n⟩

/-- A key that moves the cursor leaves it in the range of the rows. -/
theorem clamped_press {g : Grid} {k : Key} (h : k.isAny moveKeys = true) :
    g.Clamped (g.press k).cursor := by
  simp only [moveKeys, Key.isAny_append, Bool.or_eq_true] at h
  unfold press
  split
  · exact g.clamped_moveUp _
  split
  · exact g.clamped_moveDown _
  split
  · exact g.clamped_moveUp _
  split
  · exact g.clamped_moveDown _
  split
  · exact g.clamped_moveUp _
  split
  · exact g.clamped_moveDown _
  split
  · exact g.clamped_moveUp _
  split
  · exact g.clamped_moveDown _
  · simp_all

/-- Any other key leaves the table as it is. -/
theorem press_of_not_move {g : Grid} {k : Key} (h : k.isAny moveKeys = false) : g.press k = g := by
  simp only [moveKeys, Key.isAny_append, Bool.or_eq_false_iff] at h
  simp [press, h]

/-! ## Drawing -/

def cellBox (width : Nat) : Terminal.Box := { width := width, maxWidth := width, oneLine := true }

def padded : Terminal.Box := { padding := 1 }

def titleBox : Terminal.Box := { padding := 1, sides := .bottom }

def titles (g : Grid) : Text :=
  Terminal.beside (g.columns.map fun c =>
    titleBox.render ((cellBox c.width).render (c.title.fitted c.width)))

/-- A row, one cell in each column. -/
def drawRow (g : Grid) (row : List Text) : Text :=
  Terminal.beside ((g.columns.zip row).map fun (c, cell) =>
    padded.render ((cellBox c.width).render (cell.fitted c.width)))

/-- The lines that are laid out. -/
def layout (g : Grid) : List Text :=
  let shown := (g.rows.drop g.first.toNat).take (g.last - g.first).toNat
  Terminal.lines (Terminal.stacked (shown.map g.drawRow))

/-- The titles and the window. -/
def view (g : Grid) : Text :=
  let window := (g.layout.drop g.offset.toNat).take g.height.toNat
  let box : Terminal.Box :=
    { width := g.width.toNat, maxWidth := g.width.toNat
      height := g.height.toNat, maxHeight := g.height.toNat }
  g.titles ++ "\n" ++ box.render (Terminal.unlines window)

end Grid

end LiteralAudit
