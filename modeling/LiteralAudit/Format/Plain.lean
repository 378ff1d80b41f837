import LiteralAudit.Number.Decimal
import LiteralAudit.Pipeline.Outcome
import LiteralAudit.Sparkline
import LiteralAudit.Terminal.Cells

/-!
# Reports as plain text

The report that people read on a terminal, in colours if they want: a summary, the first issues, what
to do about them and how the run compares with the one before it.
-/

/-!
## Colours of a terminal

A style is a weight and one of 256 colours. Each line of a text in a style stands between the
sequences that switch it on and off again, and the lines are filled to equal length.
-/

namespace LiteralAudit.Ansi

structure Style where
  bold : Bool := false
  colour? : Option Nat := none
  deriving Repr, DecidableEq

/-- The parameters that switch a style on. -/
def Style.codes (s : Style) : List Text :=
  (if s.bold then [Text.ofString "1"] else []) ++
    (match s.colour? with
      | some n => ["38;5;" ++ Text.ofNat n]
      | none => [])

/-- A line in a style. -/
def Style.paint (s : Style) (line : Text) : Text :=
  match s.codes with
  | [] => line
  | codes => "\x1b[" ++ Text.join ";" codes ++ "m" ++ line ++ "\x1b[0m"

/-- A text in a style. -/
def Style.render (s : Style) (t : Text) : Text :=
  let plain := Text.replaceAll "\r\n" "\n" (Terminal.expandTabs t)
  match (Terminal.lines plain).map s.paint with
  | [line] => line
  | painted => Terminal.unlines (Terminal.fill 0 painted)

end LiteralAudit.Ansi

namespace LiteralAudit.Format

/-- The kinds of issues, the most frequent first and then by name. -/
def sortedKinds (c : Counts) : List (Text × Int) :=
  c.mergeSort fun a b => if a.2 != b.2 then a.2 > b.2 else Text.le a.1 b.1

/-- A text with blanks behind it up to a width in characters. -/
def padRight (width : Nat) (t : Text) : Text :=
  t ++ List.replicate (width - t.runeCount) (' ' : UInt8)

namespace Plain

/-- How a report is shown. -/
structure Look where
  coloured : Bool := false
  /-- How many issues are listed. -/
  limit : Int := 20

def passed : Ansi.Style := { bold := true, colour? := some 42 }

def failed : Ansi.Style := { bold := true, colour? := some 196 }

def inError : Ansi.Style := { bold := true, colour? := some 201 }

def title : Ansi.Style := { bold := true }

def ofSeverity : Severity → Ansi.Style
  | .critical => { bold := true, colour? := some 196 }
  | .high => { colour? := some 208 }
  | .medium => { colour? := some 220 }
  | .low => { colour? := some 39 }
  | .other _ => {}

/-- A text in a style, if colours are wanted. -/
def styled (look : Look) (s : Ansi.Style) (t : Text) : Text :=
  if look.coloured then s.render t else t

def line (t : Text) : Text := t ++ "\n"

def rule : Text := "--------------------------------------------------\n"

/-- The name of a level in capitals, in a column of ten characters. -/
def label (look : Look) (s : Severity) : Text :=
  styled look (ofSeverity s) (padRight 10 s.name.toUpper)

def header : Text :=
  "╔════════════════════════════════════════════╗\n" ++
  "║         CodeSpectre Validation Report      ║\n" ++
  "╚════════════════════════════════════════════╝\n\n"

def summary (look : Look) (r : Report) : Text :=
  line (styled look title "Summary:") ++ rule ++
  line ("  Files Scanned: " ++ Text.ofInt r.files) ++
  line ("  Total Issues: " ++ Text.ofNat r.issues.length) ++
  line ("  Validation Score: " ++ Number.fixedPlaces 1 r.score ++ "/100 (" ++
    r.readiness.toUpper ++ ")") ++
  line ("  Duration: " ++ Number.fixedPlaces 2 r.seconds ++ "s") ++
  (if r.whitelistApplied then line "  Whitelist: applied" else []) ++
  (if r.interrupted then
    line ("  " ++ styled look failed "Scan interrupted: report is partial") else []) ++
  "\n" ++
  "Issues by Severity:\n" ++
  Severity.known.flatMap (fun s =>
    line ("  " ++ label look s ++ " " ++ Text.ofInt (r.count s))) ++
  "\n" ++
  (match sortedKinds (r.byKind?.getD []) with
    | [] => []
    | kinds => "Issues by Type:\n" ++ kinds.flatMap fun (kind, n) =>
        line ("  " ++ padRight 34 kind ++ " " ++ Text.ofInt n) : Text)

def issueLine (look : Look) (i : Issue) : Text :=
  line ("  " ++ label look i.severity ++ " " ++ i.file ++ ":" ++ Text.ofInt i.line ++ " " ++
    i.description)

/-- The first issues, and how many more there are. -/
def issues (look : Look) (is : List Issue) : Text :=
  let shown := is.take look.limit.toNat
  let more := is.length - shown.length
  "\nIssues:\n" ++ rule ++ shown.flatMap (issueLine look) ++
    (if more == 0 then [] else line ("  ... and " ++ Text.ofNat more ++ " more"))

def recommendations (rs : List Recommendation) : Text :=
  "\nRecommended Actions:\n" ++ rule ++ (rs.zipIdx 1).flatMap fun (r, n) =>
    line ("  " ++ Text.ofNat n ++ ". [" ++ r.severity.name.toUpper ++ "] " ++ r.action ++ " (" ++
      r.kind ++ ")") ++
    line ("     Impact: " ++ r.impact)

def trend (t : Trend) : Text :=
  "Trend Analysis:\n" ++ rule ++
  line ("  Direction: " ++ t.direction ++ " " ++ Sparkline.indicator t.direction) ++
  line ("  Change: " ++ Text.ofInt t.previousIssues ++ " → " ++ Text.ofInt t.currentIssues ++
    " issues (" ++ Number.fixedPlaces 1 t.changePercent ++ "%)") ++
  line ("  Score: " ++ Number.fixedPlaces 1 t.previousScore ++ " → " ++
    Number.fixedPlaces 1 t.currentScore) ++
  (if t.newIssues > 0 then line ("  New Issues: " ++ Text.ofInt t.newIssues) else []) ++
  (if t.resolvedIssues > 0 then line ("  Resolved: " ++ Text.ofInt t.resolvedIssues) else []) ++
  line ("  Compared With: " ++ t.comparedWith.plain)

/-- A report. -/
def report (look : Look) (r : Report) : Text :=
  header ++
  line ("Scanned: " ++ r.root) ++
  line ("Timestamp: " ++ r.timestamp.plain) ++ "\n" ++
  summary look r ++
  (if look.limit > 0 && !r.issues.isEmpty then issues look r.issues else []) ++
  (if r.recommendations.isEmpty then [] else recommendations r.recommendations) ++
  (match r.trend? with
    | some t => "\n" ++ trend t
    | none => [] : Text)

def comparison (c : Comparison) : Text :=
  line ("  Baseline: " ++ Number.fixedPlaces 2 c.baselineSeconds ++ "s -> " ++
    Number.fixedPlaces 2 c.currentSeconds ++ "s (x" ++ Number.fixedPlaces 2 c.ratio ++
    "), score " ++ Number.fixedPlaces 1 c.baselineScore ++ " -> " ++
    Number.fixedPlaces 1 c.currentScore)

def statusStyle (status : Text) : Ansi.Style :=
  if status == "PASS" then passed else if status == "FAIL" then failed else inError

/-- The outcome of a pipeline run, behind its report if it has one. -/
def outcome (look : Look) (o : Outcome) : Text :=
  (match o.report? with
    | some r => report look r ++ "\n"
    | none => [] : Text) ++
  "Pipeline Result:\n" ++ rule ++
  line ("  Status: " ++ styled look (statusStyle o.status) o.status ++ " (exit code " ++
    Text.ofInt o.exitCode ++ ")") ++
  (if o.error.isEmpty then [] else line ("  Error: " ++ o.error)) ++
  (if o.failedGate.isEmpty then [] else line ("  Failed gate: " ++ o.failedGate)) ++
  o.violations.flatMap (fun v => line ("  - " ++ v.gate ++ ": " ++ v.message)) ++
  (match o.comparison? with
    | some c => comparison c
    | none => []) ++
  (if o.regression then
    line "  Performance regression: scan is more than 20% slower than baseline" else []) ++
  (if o.baselineUpdated then line "  Baseline updated" else []) ++
  o.artifacts.flatMap (fun a => line ("  Artifact: " ++ a)) ++
  o.deliveries.flatMap fun d =>
    line ("  Notification " ++ d.kind ++ " " ++ d.endpoint ++ ": " ++
      (if d.delivered then Text.ofString "delivered" else "failed: " ++ d.error))

end Plain

end LiteralAudit.Format

/-!
## Outcomes as Markdown

The summary of a pipeline run that is kept with its artifacts.
-/

namespace LiteralAudit.Format.Markdown

/-- A row of a table with two columns. -/
def row (name value : Text) : Text := "| " ++ name ++ " | " ++ value ++ " |\n"

/-- The table of the kinds of issue, absent when there is none. -/
def kinds (r : Report) : Text :=
  match sortedKinds (r.byKind?.getD []) with
  | [] => []
  | ks => "\n## Issues by Type\n\n| Type | Count |\n|---|---|\n" ++
      (ks.flatMap fun (kind, n) => row kind (Text.ofInt n) : Text)

def scan (r : Report) : Text :=
  "## Scan\n\n| Metric | Value |\n|---|---|\n" ++
  row "Timestamp" r.timestamp.plain ++
  row "Files scanned" (Text.ofInt r.files) ++
  row "Total issues" (Text.ofNat r.issues.length) ++
  row "Validation score" (Number.fixedPlaces 1 r.score ++ " (" ++ r.readiness ++ ")") ++
  row "Duration" (Number.fixedPlaces 2 r.seconds ++ "s") ++
  (if r.interrupted then row "Partial" "yes" else []) ++
  "\n## Issues by Severity\n\n| Severity | Count |\n|---|---|\n" ++
  (Severity.known.flatMap fun s => row s.name (Text.ofInt (r.count s)) : Text) ++ kinds r

def violation (o : Outcome) (v : Violation) : Text :=
  "- **" ++ v.gate ++ "**" ++ (if v.gate == o.failedGate then " (decisive)" else [] : Text) ++
    ": " ++ v.message ++ "\n"

def gates (o : Outcome) : Text :=
  "\n## Gates\n\n" ++
  (if o.violations.isEmpty then "All gates passed.\n" else [] : Text) ++
  o.violations.flatMap (violation o)

def performance (o : Outcome) : Text :=
  "\n## Performance\n\n" ++
  (match o.comparison? with
    | some c =>
      "| | Baseline | Current |\n|---|---|---|\n" ++
      "| Duration | " ++ Number.fixedPlaces 2 c.baselineSeconds ++ "s | " ++
        Number.fixedPlaces 2 c.currentSeconds ++ "s |\n" ++
      "| Score | " ++ Number.fixedPlaces 1 c.baselineScore ++ " | " ++
        Number.fixedPlaces 1 c.currentScore ++ " |\n" ++
      "| Files | " ++ Text.ofInt c.baselineFiles ++ " | " ++ Text.ofInt c.currentFiles ++ " |\n\n" ++
      "Performance regression: **" ++ (if o.regression then "true" else "false" : Text) ++ "**\n"
    | none => "No baseline available.\n" : Text) ++
  (if o.baselineUpdated then "\nBaseline updated with this run.\n" else [] : Text)

def delivery (d : Delivery) : Text :=
  "- " ++ d.kind ++ " " ++ d.endpoint ++ ": " ++
    (if d.delivered then Text.ofString "delivered" else "failed (" ++ d.error ++ ")") ++ "\n"

def notifications (o : Outcome) : Text :=
  if o.deliveries.isEmpty then []
  else "\n## Notifications\n\n" ++ o.deliveries.flatMap delivery

def outcome (o : Outcome) : Text :=
  "# CodeSpectre Pipeline Summary\n\n" ++
  "**Status:** " ++ o.status ++ " (exit code " ++ Text.ofInt o.exitCode ++ ")\n\n" ++
  (if o.error.isEmpty then [] else "**Error:** " ++ o.error ++ "\n\n" : Text) ++
  (match o.report? with
    | some r => scan r
    | none => []) ++
  gates o ++ performance o ++ notifications o

end LiteralAudit.Format.Markdown
