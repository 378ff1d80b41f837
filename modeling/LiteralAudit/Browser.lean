import LiteralAudit.Browser.Grid
import LiteralAudit.Report
import LiteralAudit.Text.Base64

/-!
# Browsing the issues of a report

The browser shows the issues of a report in a table. Keys filter them by kind, severity and words, sort
them, move through them and copy one. A `Browser` is a state, and `Browser.update` is what a key or a
new window size does to it.

The rows of the table are always those of `shown`, and `shown` is always what the filter and the order
make of the report's issues: every change of either goes through `rebuild`.

The table and the search box are made elsewhere, and the browser knows them by what they do with what it
passes on to them (`Browser.Widgets`). An element of a list is read by `Browser.item?`; a step that reads
one out of range does not come to an end, and `Browser.update?` has no result.
-/

namespace LiteralAudit

namespace Text

/-- A text cut to `n` bytes, with three dots for what is cut at its end if there is room for them.
Nothing has less than no bytes. -/
def truncated? (n : Int) (t : Text) : Option Text :=
  if (t.length : Int) ≤ n then some t
  else if n < 0 then none
  else if n ≤ 3 then some (t.take n.toNat)
  else some (t.take (n.toNat - 3) ++ "...")

/-- A text cut to `n` bytes from its start, which keeps the end of a path. -/
def truncatedLeft? (n : Int) (t : Text) : Option Text :=
  if (t.length : Int) ≤ n then some t
  else if n < 0 then none
  else if n ≤ 3 then some (t.drop (t.length - n.toNat))
  else some ("..." ++ t.drop (t.length - n.toNat + 3))

theorem isSome_truncated? {n : Int} (h : 0 ≤ n) (t : Text) : (t.truncated? n).isSome = true := by
  grind [truncated?]

theorem isSome_truncatedLeft? {n : Int} (h : 0 ≤ n) (t : Text) :
    (t.truncatedLeft? n).isSome = true := by
  grind [truncatedLeft?]

end Text

namespace Browser

/-! ## Filters and orders -/

/-- Which issues are shown. An empty field filters nothing. -/
structure Filter where
  kind : Text := []
  severity? : Option Severity := none
  search : Text := []
  deriving Repr, DecidableEq, BEq, Inhabited

/-- Whether an issue holds a text, in any letter case. -/
def mentions (words : Text) (i : Issue) : Bool :=
  i.file.toLower.includes words || i.kind.toLower.includes words || i.severity.name.includes words ||
    i.description.toLower.includes words || i.pattern.toLower.includes words

/-- Whether an issue passes a filter. -/
def Filter.admits (f : Filter) (i : Issue) : Bool :=
  (f.kind.isEmpty || i.kind == f.kind) &&
    (match f.severity? with
      | some s => i.severity == s
      | none => true) &&
    (f.search.toLower.isEmpty || mentions f.search.toLower i)

/-- The severity filter after the current one: none, then each known level from the most severe on. -/
def Filter.nextSeverity : Option Severity → Option Severity
  | none => some .critical
  | some .critical => some .high
  | some .high => some .medium
  | some .medium => some .low
  | some _ => none

/-- How the issues are sorted. -/
inductive Order where
  | severity | kind | file | discovery
  deriving Repr, DecidableEq, BEq, Inhabited

namespace Order

def name : Order → Text
  | severity => "severity"
  | kind => "type"
  | file => "file"
  | discovery => "discovery"

def next : Order → Order
  | severity => kind
  | kind => file
  | file => discovery
  | discovery => severity

/-- Whether one issue may stand before another. -/
def le : Order → Issue → Issue → Bool
  | severity, a, b => a.severity.rank ≤ b.severity.rank
  | kind, a, b => Text.le a.kind b.kind
  | file, a, b => if a.file != b.file then Text.le a.file b.file else a.line ≤ b.line
  | discovery, _, _ => true

/-- The issues in an order; equal ones stay as they were. -/
def sort (o : Order) (is : List Issue) : List Issue :=
  match o with
  | discovery => is
  | o => is.mergeSort o.le

end Order

/-! ## Rows -/

def columns : List Column :=
  [⟨"Severity", 10⟩, ⟨"Type", 30⟩, ⟨"File", 36⟩, ⟨"Line", 6⟩]

/-- The cells of an issue. -/
def row (i : Issue) : List Text :=
  [i.severity.name.toUpper, (i.kind.truncated? 30).get (Text.isSome_truncated? (by decide) _),
    (i.file.truncatedLeft? 36).get (Text.isSome_truncatedLeft? (by decide) _), Text.ofInt i.line]

/-! ## Reading lists -/

/-- The element at an index; there is none when the index is out of range. -/
def item? {α : Type} (xs : List α) (i : Int) : Option α := if 0 ≤ i then xs[i.toNat]? else none

theorem exists_item? {α : Type} {xs : List α} {i : Int} (h : 0 ≤ i) (hi : i < xs.length) :
    ∃ x, item? xs i = some x := by
  refine ⟨xs[i.toNat], ?_⟩
  rw [item?, if_pos h, List.getElem?_eq_getElem]

end Browser

/-! ## The state -/

/-- What keys mean at the moment. -/
inductive Browser.Mode where
  | normal
  /-- Keys go to the search box. -/
  | search
  /-- Keys choose the kind to filter by. -/
  | choosing
  deriving Repr, DecidableEq, BEq, Inhabited

/-- A browser: a report, what of it is shown, and where the user is. -/
structure Browser where
  report : Report
  /-- The issue counts of earlier runs, the oldest first. -/
  history : List Int := []
  /-- The issues of the report in the order in which they were found. -/
  issues : List Issue
  /-- The kinds that can be filtered by, in order. -/
  kinds : List Text
  grid : Grid
  input : LineEditor := {}
  /-- The issues that pass the filter, in order. -/
  shown : List Issue := []
  filter : Browser.Filter := {}
  order : Browser.Order := .severity
  mode : Browser.Mode := .normal
  /-- The choice of kind under the cursor, where 0 is no filter. -/
  choice : Int := 0
  width : Int := 80
  height : Int := 24
  status : Text := []
  clipboard : Text := []

namespace Browser

/-- What reaches a browser. -/
inductive Message where
  | key (k : Key)
  | resized (width height : Int)
  /-- Something that the browser does not know. -/
  | other (content : Text := [])

/-- What a browser asks for besides its new state. -/
structure Effect where
  quit : Bool := false
  /-- What is written to the terminal. -/
  written : Text := []
  deriving Repr, DecidableEq, BEq, Inhabited

/-! ## The table and the search box -/

/-- What the table and the search box do. -/
structure Widgets where
  /-- The table with other rows. -/
  setRows : Grid → List (List Text) → Grid
  /-- The table with its cursor put on a row. -/
  select : Grid → Int → Grid
  /-- The table in another size. -/
  resize : Grid → Int → Int → Grid
  /-- The table after a message that the browser leaves to it. -/
  table : Grid → Message → Grid
  /-- The search box after a message that the browser leaves to it. -/
  box : LineEditor → Message → LineEditor

/-- A table and a search box that know keys only. -/
def Widgets.standard : Widgets where
  setRows := Grid.setRows
  select := Grid.select
  resize := Grid.resize
  table g
    | .key k => g.press k
    | _ => g
  box e
    | .key k => e.press k
    | _ => e

/-! ## What is shown -/

/-- The kinds of issues, in order. -/
def kindsOf (is : List Issue) : List Text := Text.sort (Report.firstSeen (is.map (·.kind)))

/-- What the filter and the order make of the issues of the report. -/
def selection (b : Browser) : List Issue := b.order.sort (b.issues.filter b.filter.admits)

/-- Shows what the filter and the order say, with the cursor on a row. -/
def rebuild (w : Widgets) (b : Browser) : Browser :=
  let shown := b.selection
  let grid := w.setRows b.grid (shown.map row)
  { b with
    shown := shown
    grid := if grid.cursor ≥ shown.length then w.select grid (max ((shown.length : Int) - 1) 0)
      else grid }

/-- A browser for a report. -/
def start (report : Report) (history : List Int) (w : Widgets := .standard) : Browser :=
  rebuild w {
    report := report
    history := history
    issues := report.issues
    kinds := kindsOf report.issues
    grid := { columns := columns, height := 14 } }

/-- The issue under the cursor. -/
def selected? (b : Browser) : Option Issue :=
  if h : 0 ≤ b.grid.cursor ∧ b.grid.cursor < b.shown.length then some b.shown[b.grid.cursor.toNat]
  else none

/-! ## Files -/

/-- Which way to go through the rows. -/
inductive Way where
  | forth | back
  deriving Repr, DecidableEq

/-- One row further. -/
def Way.step : Way → Int
  | forth => 1
  | back => -1

/-- The first index from `i` on that is out of range or of another file. -/
def passFile? (is : List Issue) (file : Text) (way : Way) (i : Int) : Option Int :=
  if 0 ≤ i ∧ i < is.length then
    (item? is i).bind fun here =>
      if here.file == file then passFile? is file way (i + way.step) else some i
  else some i
termination_by match way with
  | .forth => (is.length - i).toNat
  | .back => (i + 1).toNat
decreasing_by cases way <;> simp only [Way.step] <;> omega

/-- The first of the rows of a file that end at `i`. -/
def runStart? (is : List Issue) (file : Text) (i : Int) : Option Int :=
  if i > 0 then
    (item? is (i - 1)).bind fun above =>
      if above.file == file then runStart? is file (i - 1) else some i
  else some i
termination_by i.toNat

/-- Moves to the nearest row of another file; on the way back, to the first of its rows. -/
def jump? (w : Widgets) (b : Browser) (way : Way) : Option Browser :=
  if b.grid.cursor < 0 ∨ b.grid.cursor ≥ b.shown.length then some b
  else do
    let here ← item? b.shown b.grid.cursor
    let i ← passFile? b.shown here.file way (b.grid.cursor + way.step)
    if i < 0 ∨ i ≥ b.shown.length then some { b with status := "No more files" }
    else
      let there ← item? b.shown i
      let i ← match way with
        | .forth => some i
        | .back => runStart? b.shown there.file i
      let there ← item? b.shown i
      some { b with grid := w.select b.grid i, status := there.file }

/-! ## Copying -/

/-- An issue as it is copied. -/
def copied (i : Issue) : Text :=
  i.file ++ ":" ++ Text.ofInt i.line ++ " [" ++ i.severity.name ++ "] " ++ i.kind ++ ": " ++
    i.description ++ (if i.fix.isEmpty then [] else Text.ofString " -- " ++ i.fix)

/-- The sequence that makes a terminal put a text on its clipboard. -/
def clipboardSequence (t : Text) : Text := "\x1b]52;c;" ++ t.toBase64 ++ "\x07"

def copy (b : Browser) : Browser × Effect :=
  match b.selected? with
  | none => ({ b with status := "Nothing to copy" }, {})
  | some i =>
    ({ b with clipboard := copied i, status := "Copied!" },
      { written := clipboardSequence (copied i) })

/-! ## Keys -/

def pressNormal? (w : Widgets) (b : Browser) (k : Key) : Option (Browser × Effect) :=
  if k.isAny ["q", "ctrl+c"] then some (b, { quit := true })
  else if k.isAny ["/"] then some ({ b with mode := .search }, {})
  else if k.isAny ["t"] then some ({ b with mode := .choosing, choice := 0 }, {})
  else if k.isAny ["v"] then
    let level? := Filter.nextSeverity b.filter.severity?
    let b := rebuild w { b with filter := { b.filter with severity? := level? } }
    some ({ b with
      status := match level? with
        | some s => "Severity: " ++ s.name
        | none => [] }, {})
  else if k.isAny ["s"] then
    let b := rebuild w { b with order := b.order.next }
    some ({ b with status := "Sort: " ++ b.order.name }, {})
  else if k.isAny ["c"] then some b.copy
  else if k.isAny ["n"] then (b.jump? w .forth).map (·, {})
  else if k.isAny ["N"] then (b.jump? w .back).map (·, {})
  else if k.isAny ["esc"] then some (rebuild w { b with filter := {}, input := {}, status := [] }, {})
  else some ({ b with grid := w.table b.grid (.key k) }, {})

def pressSearch (w : Widgets) (b : Browser) (k : Key) : Browser :=
  if k.isAny ["enter"] then
    rebuild w { b with filter := { b.filter with search := b.input.text }, mode := .normal }
  else if k.isAny ["esc"] then { b with mode := .normal, input := {} }
  else { b with input := w.box b.input (.key k) }

/-- The kind to filter by that is under the cursor of the choices; the empty text is no filter. -/
def chosenKind? (b : Browser) : Option Text :=
  if b.choice == 0 then some [] else item? b.kinds (b.choice - 1)

def pressChoosing? (w : Widgets) (b : Browser) (k : Key) : Option Browser :=
  if k.isAny ["up", "k"] then some (if b.choice > 0 then { b with choice := b.choice - 1 } else b)
  else if k.isAny ["down", "j"] then
    some (if b.choice < b.kinds.length then { b with choice := b.choice + 1 } else b)
  else if k.isAny ["enter"] then
    b.chosenKind?.map fun kind =>
      let b := rebuild w { b with filter := { b.filter with kind := kind }, mode := .normal }
      { b with status := if kind.isEmpty then [] else "Filter: " ++ kind }
  else if k.isAny ["esc"] then some { b with mode := .normal }
  else some b

def press? (w : Widgets) (b : Browser) (k : Key) : Option (Browser × Effect) :=
  match b.mode with
  | .normal => b.pressNormal? w k
  | .search => some (b.pressSearch w k, {})
  | .choosing => (b.pressChoosing? w k).map (·, {})

/-- The lines of the header. -/
def headerHeight : Int := 5

/-- The lines of the panel with the selected issue. -/
def detailHeight : Int := 5

/-- The state after a message, and what it asks for; there is none when an index is out of range. -/
def update? (w : Widgets) (b : Browser) : Message → Option (Browser × Effect)
  | .key k => b.press? w k
  | .resized width height =>
    some ({ b with
      width := width
      height := height
      grid := w.resize b.grid width (max (height - headerHeight - detailHeight - 3) 3) }, {})
  | .other content =>
    match b.mode with
    | .search => some ({ b with input := w.box b.input (.other content) }, {})
    | _ => some ({ b with grid := w.table b.grid (.other content) }, {})

/-- The state after a message, and what it asks for. -/
def update (b : Browser) (m : Message) (w : Widgets := .standard) : Browser × Effect :=
  (b.update? w m).getD (b, {})

/-- The state after messages in order; there is none when an index is out of range on the way. -/
def run? (w : Widgets) (b : Browser) (ms : List Message) : Option Browser :=
  ms.foldlM (fun b m => (b.update? w m).map (·.1)) b

end Browser

end LiteralAudit
