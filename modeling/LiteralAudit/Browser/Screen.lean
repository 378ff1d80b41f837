import LiteralAudit.Browser
import LiteralAudit.Number.Decimal
import LiteralAudit.Sparkline

/-!
# What the browser shows

A header with the summary of the report, the search box or the choice of kinds when they are in use, the
table, a panel with the selected issue, and a line of hints.
-/

namespace LiteralAudit.Browser

open Terminal

/-- A text in a style that changes nothing but its look: lines are filled to equal length. -/
def plainBox : Box := {}

def isKnownReadiness (level : Text) : Bool :=
  (["excellent", "good", "warning", "critical", "severe"].map Text.ofString).contains level

def score (r : Report) : Text :=
  let t := Number.fixedPlaces 1 r.score ++ "/100 (" ++ r.readiness.toUpper ++ ")"
  if isKnownReadiness r.readiness then plainBox.render t else expandTabs t

def headline (r : Report) : Text :=
  "CodeSpectre  Score: " ++ score r ++
    (match r.trend? with
      | some t => "  " ++ Sparkline.indicator t.direction ++ " " ++
          Number.fixedPlaces 1 t.changePercent ++ "%"
      | none => [] : Text) ++
    (if r.interrupted then Text.ofString "  (partial)" else [])

/-- The number of issues of each level that has any. -/
def breakdown (r : Report) : Text :=
  Text.join "  " (Severity.known.filterMap fun s =>
    if r.count s > 0 then some (s.name.toUpper.take 1 ++ ":" ++ Text.ofInt (r.count s)) else none)

def headerBox (width : Int) : Box :=
  { width := width.toNat, padding := 1, border := .rounded, sides := .all }

/-- The header; there is none when the history cannot be drawn. -/
def header? (r : Report) (history : List Int) (width : Int) : Option Text :=
  (Sparkline.render? history).map fun bars =>
    (headerBox width).render (unlines [
      headline r,
      "Files: " ++ Text.ofInt r.files ++ "  Issues: " ++ Text.ofNat r.issues.length ++ "  Root: " ++
        r.root,
      breakdown r,
      if history.isEmpty then [] else Text.ofString "Trend: " ++ bars])

def panelBox (width : Int) : Box := { width := width.toNat, padding := 1, sides := .top }

/-- The panel with an issue. -/
def detail (issue? : Option Issue) (width : Int) : Text :=
  (panelBox width).render <|
    match issue? with
    | none => "No issue selected"
    | some i =>
      let level := i.severity.name.toUpper
      let level := if i.severity.isKnown then plainBox.render level else expandTabs level
      let place := plainBox.render (i.file ++ ":" ++ Text.ofInt i.line)
      let lines : List Text :=
        [level ++ "  " ++ i.kind ++ "  " ++ place, i.description] ++
        (if i.pattern.isEmpty then [] else [Text.ofString "Pattern: " ++ i.pattern]) ++
        (if i.fix.isEmpty then [] else [plainBox.render ("Fix: " ++ i.fix)])
      Text.trimEnd (fun (b : UInt8) => b == '\n') (unlines lines)

/-- The choice of kinds. -/
def choices (b : Browser) : Text :=
  let options := (Text.ofString "All" :: b.kinds).zipIdx.map fun (kind, i) =>
    Text.ofString (if (i : Int) == b.choice then "> " else "  ") ++ kind
  unlines (Text.ofString "Filter by issue type:" :: options) ++ "\n"

def hints : Text :=
  "q:quit  /:search  t:type  v:severity  s:sort  n/N:file  c:copy  esc:clear"

/-- The last line: the hints, the status and how many issues are shown. -/
def footer (b : Browser) : Text :=
  let counts := Text.ofNat b.shown.length ++ "/" ++ Text.ofNat b.issues.length ++ " issues"
  let right := if b.status.isEmpty then counts else b.status ++ "  " ++ counts
  let gap := max (b.width - widest (lines hints) - widest (lines right)) 1
  ({ padding := 1 } : Box).render (hints ++ blanks gap.toNat ++ right)

/-- The whole screen; there is none when the history cannot be drawn. -/
def view? (b : Browser) : Option Text :=
  (header? b.report b.history b.width).map fun header =>
    header ++ "\n" ++
    (match b.mode with
      | .normal => []
      | .search => "/ " ++ b.input.view ++ "\n"
      | .choosing => b.choices ++ "\n" : Text) ++
    b.grid.view ++ "\n" ++
    detail b.selected? b.width ++ "\n" ++
    b.footer

end LiteralAudit.Browser
