import LiteralAudit.Json.Writer
import LiteralAudit.Number.Decimal
import LiteralAudit.Report
import LiteralAudit.Report.Codec
import LiteralAudit.Report.Score
import LiteralAudit.Sparkline

/-!
# Explanations of scores as text and JSON
-/

/-!
## How a score comes about

An explanation recomputes the score of a report from its issues and shows each step: the points of each
level, their sum, and what they are measured by.
-/

namespace LiteralAudit

/-- What the issues of one level add. -/
structure Contribution where
  severity : Severity
  count : Int
  deriving Repr, DecidableEq, Inhabited

def Contribution.points (c : Contribution) : Int := Number.wrap64 (c.count * c.severity.weight)

structure Explanation where
  contributions : List Contribution
  files : Int
  score : Float
  deriving Inhabited

namespace Explanation

/-- The least score of each readiness level, the best one first. -/
def thresholds : List (Nat × Text) :=
  [(95, "excellent"), (85, "good"), (70, "warning"), (50, "critical"), (0, "severe")]

def ofReport (r : Report) : Explanation :=
  let counts := Report.countBySeverity r.issues
  { contributions := Severity.known.map fun s => ⟨s, counts.get s.name⟩
    files := r.files
    score := Score.score counts r.files }

/-- The sum of the points. -/
def weighted (e : Explanation) : Int :=
  e.contributions.foldl (fun sum c => Number.wrap64 (sum + c.points)) 0

/-- The points that bring the score down to zero. -/
def worst (e : Explanation) : Int := Number.wrap64 (e.files * Score.worstPerFile)

def readiness (e : Explanation) : Text := Score.readiness e.score

def formula (e : Explanation) : Text :=
  if e.worst > 0 then
    "max(0, 100 - " ++ Text.ofInt e.weighted ++ " / " ++ Text.ofInt e.worst ++ " * 100) = " ++
      Number.fixedPlaces 1 e.score
  else "no files scanned = 100.0"

end Explanation

end LiteralAudit

namespace LiteralAudit.Explanation

/-- A number with blanks before it up to a width. -/
def rightAligned (width : Nat) (t : Text) : Text :=
  List.replicate (width - t.length) (' ' : UInt8) ++ t

/-- A text with blanks behind it up to a width. -/
def leftAligned (width : Nat) (t : Text) : Text :=
  t ++ List.replicate (width - t.length) (' ' : UInt8)

def contributionLine (c : Contribution) : Text :=
  "   " ++ leftAligned 10 c.severity.name ++ "  " ++ rightAligned 3 (Text.ofInt c.count) ++ " x " ++
    rightAligned 2 (Text.ofInt c.severity.weight) ++ " = " ++ Text.ofInt c.points

/-- The thresholds, with an arrow at the level that was reached. -/
def thresholdLine (e : Explanation) (least : Nat) (level : Text) : Text :=
  "   " ++ (if e.readiness == level then Text.ofString "→ " else "  ") ++ "≥ " ++ Text.ofNat least ++
    "  " ++ level

/-- The explanation for people. -/
def text (e : Explanation) : Text :=
  let head : List Text :=
    ["Validation Score Breakdown", "==========================", [], "1. Issues by severity:"]
  let sums : List Text :=
    [[], "2. Weighted total: " ++ Text.ofInt e.weighted,
     "3. Max possible: " ++ Text.ofInt e.files ++ " files x 10 = " ++ Text.ofInt e.worst,
     [], "4. Formula:", "   score = max(0, 100 - weighted / max * 100)",
     "   score = " ++ e.formula,
     [], "5. Thresholds:"]
  let result : List Text :=
    [[], "Result: " ++ Number.fixedPlaces 1 e.score ++ "/100 (" ++ e.readiness.toUpper ++ ")", []]
  Text.join "\n" (head ++ e.contributions.map contributionLine ++ sums ++
    thresholds.map (fun (least, level) => e.thresholdLine least level) ++ result)

/-- The explanation as JSON; none when JSON cannot hold the score. -/
def toJson? (e : Explanation) : Option Json := do
  return .record [
    ("per_severity", .array (e.contributions.map fun c => .record [
      ("severity", .string c.severity.name), ("count", .ofInt c.count),
      ("weight", .ofInt c.severity.weight), ("points", .ofInt c.points)])),
    ("weighted_total", .ofInt e.weighted),
    ("files_scanned", .ofInt e.files),
    ("max_possible", .ofInt e.worst),
    ("score", ← Json.ofFloat? e.score),
    ("readiness_level", .string e.readiness),
    ("formula", .string e.formula),
    ("thresholds", .array (thresholds.map fun (least, level) =>
      .record [("min", .ofNat least), ("label", .string level)]))]

end LiteralAudit.Explanation

/-!
## Reports compared, as text and JSON

What changed between two reports, and the course of several.
-/

namespace LiteralAudit

/-- Two reports and what changed from one to the other. -/
structure Changes where
  before : Report
  after : Report
  diff : Diff

namespace Changes

def ofReports (before after : Report) : Changes := ⟨before, after, .ofReports before after⟩

/-- How many more issues there are. -/
def delta (c : Changes) : Int := c.after.issues.length - c.before.issues.length

/-- A number with its sign. -/
def signed (i : Int) : Text := if i < 0 then Text.ofInt i else "+" ++ Text.ofInt i

def issueLine (mark : Text) (i : Issue) : Text :=
  "  " ++ mark ++ " [" ++ i.severity.name.toUpper ++ "] " ++ i.file ++ ":" ++ Text.ofInt i.line ++
    " " ++ i.description

/-- A list of issues under a title; nothing when there are none. -/
def issueLines (title mark : Text) (is : List Issue) : List Text :=
  if is.isEmpty then [] else [[], title] ++ is.map (issueLine mark)

/-- The changes for people. -/
def text (c : Changes) : Text :=
  let head : List Text :=
    ["Diff: " ++ c.before.timestamp.plain ++ " → " ++ c.after.timestamp.plain,
     "--------------------------------------------------",
     "Issues: " ++ Text.ofNat c.before.issues.length ++ " → " ++
       Text.ofNat c.after.issues.length ++ " (" ++ signed c.delta ++ ")",
     "Score: " ++ Number.fixedPlaces 1 c.before.score ++ " → " ++
       Number.fixedPlaces 1 c.after.score,
     "New: " ++ Text.ofNat c.diff.added.length ++ "  Resolved: " ++
       Text.ofNat c.diff.resolved.length ++ "  Unchanged: " ++ Text.ofNat c.diff.unchanged]
  let none : List Text :=
    if c.diff.added.isEmpty && c.diff.resolved.isEmpty then [[], "No changes."] else []
  Text.join "\n" (head ++ issueLines "New issues:" "+" c.diff.added ++
    issueLines "Resolved issues:" "-" c.diff.resolved ++ none ++ [[]])

/-- The changes as JSON; none when JSON cannot hold a score. -/
def toJson? (c : Changes) : Option Json := do
  return .record [
    ("before", .string c.before.timestamp.plain),
    ("after", .string c.after.timestamp.plain),
    ("new_issues", .array (c.diff.added.map Issue.toJson)),
    ("resolved_issues", .array (c.diff.resolved.map Issue.toJson)),
    ("summary", .record [
      ("before_total", .ofNat c.before.issues.length),
      ("after_total", .ofNat c.after.issues.length),
      ("new_count", .ofNat c.diff.added.length),
      ("resolved_count", .ofNat c.diff.resolved.length),
      ("unchanged", .ofNat c.diff.unchanged),
      ("delta", .ofInt c.delta),
      ("score_before", ← Json.ofFloat? c.before.score),
      ("score_after", ← Json.ofFloat? c.after.score),
      ("new_by_severity", Json.ofCounts (some (Report.countBySeverity c.diff.added)))])]

end Changes

end LiteralAudit

/-!
## The course of several runs

The runs are given from the oldest to the latest. Their course is the trend from the first to the last.
-/

namespace LiteralAudit.Course

/-- Where the runs are heading. -/
def direction (runs : List Report) : Text :=
  match runs with
  | first :: rest =>
    match rest.getLast? with
    | some last => (Trend.ofReports last first).direction
    | none => "stable"
  | [] => "stable"

open Explanation (leftAligned rightAligned)

def runLine (stamp files issues score level : Text) : Text :=
  leftAligned 19 stamp ++ "  " ++ rightAligned 6 files ++ "  " ++ rightAligned 6 issues ++ "  " ++
    rightAligned 7 score ++ "  " ++ level

/-- The integer nearest to a score, a half away from zero. -/
def rounded (x : Float) : Int := Number.truncate64 x.round

/-- The course for people; none when one of its numbers has no bar. -/
def text? (runs : List Report) : Option Text := do
  let counts ← Sparkline.render? (runs.map fun r => (r.issues.length : Int))
  let scores ← Sparkline.render? (runs.map (rounded ·.score))
  let head : List Text :=
    ["Runs: " ++ Text.ofNat runs.length ++ "  Direction: " ++ direction runs ++ " " ++
       Sparkline.indicator (direction runs),
     "----------------------------------------------------------------",
     runLine "TIMESTAMP" "FILES" "ISSUES" "SCORE" "LEVEL"]
  let lines := runs.map fun r =>
    runLine r.timestamp.plain (Text.ofInt r.files) (Text.ofNat r.issues.length)
      (Number.fixedPlaces 1 r.score) r.readiness
  let bars : List Text := [[], "Issues: " ++ counts, "Score:  " ++ scores, []]
  return Text.join "\n" (head ++ lines ++ bars)

def runJson? (r : Report) : Option Json := do
  return .record [
    ("timestamp", .string r.timestamp.plain),
    ("files_scanned", .ofInt r.files),
    ("issues", .ofNat r.issues.length),
    ("validation_score", ← Json.ofFloat? r.score),
    ("readiness_level", .string r.readiness),
    ("scan_duration_seconds", ← Json.ofFloat? r.seconds),
    ("issues_by_severity", Json.ofCounts r.bySeverity?)]

/-- The course as JSON; none when JSON cannot hold one of its numbers. -/
def toJson? (runs : List Report) : Option Json := do
  return .record [("runs", .array (← runs.mapM runJson?)), ("direction", .string (direction runs))]

end LiteralAudit.Course
