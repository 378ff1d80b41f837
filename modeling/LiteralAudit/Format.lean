import LiteralAudit.Format.Html
import LiteralAudit.Format.Plain
import LiteralAudit.Json.Writer
import LiteralAudit.Number.Decimal
import LiteralAudit.Report
import LiteralAudit.Unicode.Category

/-!
# Formats of reports

The formats in which a report can be written, by name, and the endings of their files.
-/

/-!
## Reports as test results

One test case for each file that has issues, which fails with all of them, and one that passes for all
the files without.
-/

namespace LiteralAudit.Format

namespace Xml

/-- Whether XML can hold a character. -/
def isAllowed (c : Char) : Bool :=
  let n := c.toNat
  n == 9 || n == 10 || n == 13 || (0x20 ≤ n && n ≤ 0xD7FF) || (0xE000 ≤ n && n ≤ 0xFFFD) ||
    0x10000 ≤ n

/-- One character of an attribute or of text. -/
def escapeChar (c : Char) : Text :=
  match c with
  | '"' => "&#34;"
  | '\'' => "&#39;"
  | '&' => "&amp;"
  | '<' => "&lt;"
  | '>' => "&gt;"
  | '\t' => "&#x9;"
  | '\n' => "&#xA;"
  | '\r' => "&#xD;"
  | c => if isAllowed c then Text.ofChar c else "\uFFFD"

def escape (t : Text) : Text := t.chars.flatMap escapeChar

/-- Attributes, each behind a blank. -/
def attributes (as : List (String × Text)) : Text :=
  as.flatMap fun (name, value) => " " ++ Text.ofString name ++ "=\"" ++ escape value ++ "\""

/-- An element on one line. -/
def leaf (name : Text) (as : List (String × Text)) (text : Text) : Text :=
  "<" ++ name ++ attributes as ++ ">" ++ escape text ++ "</" ++ name ++ ">"

end Xml

namespace Junit

/-- All that is wrong with a file. -/
def failureText (issues : List Issue) : Text :=
  Text.join "\n" (issues.map fun i =>
    "Line " ++ Text.ofInt i.line ++ ": [" ++ i.severity.name.toUpper ++ "] " ++ i.kind ++ " - " ++
      i.description)

/-- The test case of a file with issues. -/
def failing (r : Report) (file : Text) : Text :=
  let message := failureText (r.issues.filter (·.file == file))
  "    <testcase" ++ Xml.attributes [("name", file), ("classname", "codespectre.files")] ++ ">\n" ++
  "      " ++ Xml.leaf "failure" [("message", message), ("type", "ValidationFailure")] message ++
    "\n    </testcase>\n"

/-- The test case of the files without issues. -/
def passing (n : Int) : Text :=
  "    " ++ Xml.leaf "testcase" [("name", Text.ofInt n ++ " files passed validation"),
    ("classname", "codespectre.files")] [] ++ "\n"

def property (name : String) (value : Text) : Text :=
  "      " ++ Xml.leaf "property" [("name", name), ("value", value)] [] ++ "\n"

def report (r : Report) : Text :=
  let files := r.filesWithIssues
  let clean := Number.wrap64 (r.files - files.length)
  let tests := files.length + (if clean > 0 then 1 else 0)
  "<?xml version=\"1.0\" encoding=\"UTF-8\"?>\n<testsuites>\n" ++
  "  <testsuite" ++ Xml.attributes [("name", "codespectre.validation"),
    ("tests", Text.ofNat tests), ("failures", Text.ofNat files.length), ("errors", "0"),
    ("time", Number.fixedPlaces 3 r.seconds), ("timestamp", r.timestamp.utc.rfc3339 false)] ++
    ">\n" ++
  "    <properties>\n" ++
  property "validation_score" (Number.fixedPlaces 2 r.score) ++
  property "critical_issues" (Text.ofInt (r.count .critical)) ++
  property "high_issues" (Text.ofInt (r.count .high)) ++
  "    </properties>\n" ++
  files.flatMap (failing r) ++ (if clean > 0 then passing clean else []) ++
  "  </testsuite>\n</testsuites>\n"

end Junit

end LiteralAudit.Format

/-!
## Reports for code scanning dashboards

The SARIF 2.1.0 format: the kinds of issues as rules, in the byte order of their names, and the issues
as results.
-/

namespace LiteralAudit.Format.Sarif

def level : Severity → Text
  | .critical | .high => "error"
  | .medium => "warning"
  | .low | .other _ => "note"

def message (t : Text) : Json := .record [("text", .string t)]

/-- The rule of a kind, as the first issue of the kind gives it. -/
def rule (i : Issue) : Json :=
  .record ([("id", .string i.kind), ("shortDescription", message i.kind)] ++
    Json.omitted i.fix.isEmpty "help" (message i.fix) ++
    [("defaultConfiguration", .record [("level", .string (level i.severity))])])

def result (i : Issue) : Json :=
  .record [("ruleId", .string i.kind), ("level", .string (level i.severity)),
    ("message", message i.description),
    ("locations", .array [.record [("physicalLocation", .record [
      ("artifactLocation", .record [("uri", .string i.file)]),
      ("region", .record [("startLine", .ofInt i.line)])])]])]

/-- The report of the version of the tool given. -/
def report (version : Text) (r : Report) : Text :=
  let kinds := Text.sort (Report.firstSeen (r.issues.map (·.kind)))
  let rules := kinds.filterMap fun kind => (r.issues.find? (·.kind == kind)).map rule
  let driver : Json := .record [("name", .string "codespectre"), ("version", .string version),
    ("rules", .array rules)]
  let log : Json := .record [
    ("$schema", .string
      "https://raw.githubusercontent.com/oasis-tcs/sarif-spec/master/Schemata/sarif-schema-2.1.0.json"),
    ("version", .string "2.1.0"),
    ("runs", .array [.record [("tool", .record [("driver", driver)]),
      ("results", .array (r.issues.map result))]])]
  log.pretty ++ "\n"

end LiteralAudit.Format.Sarif

/-!
## Reports as comma-separated values

One line for each issue below a line of column names. A field is quoted when it holds a comma, a quote
or a line break, or starts with white space.
-/

namespace LiteralAudit.Format.Csv

def columns : List Text :=
  List.map Text.ofString ["file_path", "line_number", "issue_type", "severity", "description",
    "pattern_matched", "suggested_fix"]

/-- Whether a field must be quoted. -/
def needsQuotes (field : Text) : Bool :=
  field == "\\." ||
    field.any (fun (b : UInt8) => b == '\n' || b == '\r' || b == '"' || b == ',') ||
    field.chars.head?.any Unicode.isSpace

/-- A field, in quotes if it must be; a quote inside is written twice. -/
def quote (field : Text) : Text :=
  if needsQuotes field then
    "\"" ++ field.flatMap (fun (b : UInt8) => if b == '"' then [b, b] else [b]) ++ "\""
  else field

def row (fields : List Text) : Text := Text.join "," (fields.map quote) ++ "\n"

def ofIssue (i : Issue) : List Text :=
  [i.file, Text.ofInt i.line, i.kind, i.severity.name, i.description, i.pattern, i.fix]

def report (r : Report) : Text := row columns ++ r.issues.flatMap fun i => row (ofIssue i)

end LiteralAudit.Format.Csv

/-! ## The formats by name -/

namespace LiteralAudit.Format

/-- The names of the formats. -/
def names : List Text := List.map Text.ofString ["json", "html", "csv", "junit", "sarif", "text"]

/-- The ending of files in a format. -/
def fileEnding (format : Text) : Text :=
  if format == "junit" then "xml"
  else if format == "sarif" then "sarif"
  else if format == "text" then "txt"
  else format

/-- Why a report cannot be written. -/
inductive Error where
  | unsupported (format : Text)
  /-- JSON cannot hold a number or a time of the report. -/
  | unwritable
  deriving Repr, DecidableEq

def Error.message : Error → Text
  | unsupported format => "unsupported format: " ++ format ++ " (use " ++ Text.join ", " names ++ ")"
  | unwritable => "<cause>"

def json (pretty : Bool) (r : Report) : Except Error Text :=
  match r.toJson? with
  | none => .error .unwritable
  | some j => .ok ((if pretty then j.pretty else j.compact) ++ "\n")

/-- The outcome of a pipeline run as JSON, with its status and its report. -/
def outcomeJson (o : Outcome) : Except Error Text :=
  let fields? := do
    let fields ← o.fields?
    let report ← match o.report? with
      | none => pure []
      | some r => pure [("report", ← r.toJson?)]
    return fields ++ [("status", .string o.status)] ++ report
  match fields? with
  | none => .error .unwritable
  | some fields => .ok ((Json.record fields).pretty ++ "\n")

/-- The version of the tool that reports name when they are written by name. -/
def defaultVersion : Text := "dev"

/-- A report in the format of a name, in either letter case. -/
def write (format : Text) (r : Report) : Except Error Text :=
  let name := Text.toLower format
  if name == "json" then json true r
  else if name == "html" then .ok (Html.report r)
  else if name == "csv" then .ok (Csv.report r)
  else if name == "junit" || name == "xml" then .ok (Junit.report r)
  else if name == "sarif" then .ok (Sarif.report defaultVersion r)
  else if name == "text" then .ok (Plain.report {} r)
  else .error (.unsupported format)

end LiteralAudit.Format
