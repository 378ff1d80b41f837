import LiteralAudit.Number.Decimal
import LiteralAudit.Report

/-!
# Reports as a web page

A page that stands alone. Everything that comes from the report is escaped.
-/

namespace LiteralAudit.Format.Html

/-- One byte of text between tags. -/
def escapeByte (b : UInt8) : Text :=
  if b == 0 then "\uFFFD"
  else if b == '"' then "&#34;"
  else if b == '&' then "&amp;"
  else if b == '\'' then "&#39;"
  else if b == '+' then "&#43;"
  else if b == '<' then "&lt;"
  else if b == '>' then "&gt;"
  else [b]

def escape (t : Text) : Text := t.flatMap escapeByte

/-- The colour of a level; none for a level that is not known. -/
def colour : Severity → Text
  | .critical => "#d32f2f"
  | .high => "#f57c00"
  | .medium => "#fbc02d"
  | .low => "#1976d2"
  | .other _ => []

def capitals (s : Severity) : Text := escape s.name.toUpper

def head : Text :=
  r#"<!DOCTYPE html>
<html lang="en">
<head>
<meta charset="utf-8">
<title>CodeSpectre Validation Report</title>
<style>
body { font-family: -apple-system, Helvetica, Arial, sans-serif; margin: 2em; color: #222; }
.summary { background: #f4f6f8; padding: 1em 1.5em; border-radius: 6px; margin-bottom: 1.5em; }
.summary td { padding: 2px 12px 2px 0; }
.issue { border-left: 6px solid #999; padding: 0.5em 1em; margin: 0.5em 0; background: #fafafa; }
.issue .loc { font-family: monospace; color: #555; }
.issue .fix { color: #2a6; font-size: 0.9em; }
.sev { font-weight: bold; }
</style>
</head>
<body>
<h1>CodeSpectre Validation Report</h1>
<div class="summary">
<table>
"#

/-- A row of the summary. -/
def row (name value : Text) : Text :=
  "<tr><td>" ++ name ++ "</td><td>" ++ value ++ "</td></tr>\n"

/-- The row of a level, in its colour. -/
def level (r : Report) (s : Severity) : Text :=
  "<tr><td style=\"color: " ++ colour s ++ "\">" ++ capitals s ++ "</td><td>" ++
    Text.ofInt (r.count s) ++ "</td></tr>\n"

def partialNote (r : Report) : Text :=
  if r.interrupted then
    "<tr><td colspan=\"2\"><strong>Scan interrupted: partial report</strong></td></tr>\n"
  else "\n"

def summary (r : Report) : Text :=
  row "Root" (escape r.root) ++
  row "Timestamp" (escape (r.timestamp.plain ++ " " ++ r.timestamp.zoneName)) ++
  row "Validation score" ("<strong>" ++ escape (Number.fixedPlaces 1 r.score) ++
    "</strong> / 100 (" ++ escape r.readiness ++ ")") ++
  row "Files scanned" (Text.ofInt r.files) ++
  row "Total issues" (Text.ofNat r.issues.length) ++
  Severity.known.flatMap (level r) ++
  row "Duration" (escape (Number.fixedPlaces 2 r.seconds) ++ "s") ++
  row "Whitelist applied" (if r.whitelistApplied then "true" else "false") ++
  partialNote r

def issue (i : Issue) : Text :=
  "<div class=\"issue\" style=\"border-left-color: " ++ colour i.severity ++ "\">\n" ++
  "<span class=\"sev\" style=\"color: " ++ colour i.severity ++ "\">" ++ capitals i.severity ++
    "</span> " ++ escape i.kind ++ "\n" ++
  "<div class=\"loc\">" ++ escape i.file ++ ":" ++ Text.ofInt i.line ++ "</div>\n" ++
  "<div>" ++ escape i.description ++ "</div>\n" ++
  (if i.fix.isEmpty then [] else "<div class=\"fix\">Fix: " ++ escape i.fix ++ "</div>" : Text) ++
  "\n</div>\n"

def report (r : Report) : Text :=
  head ++ summary r ++ "</table>\n</div>\n<h2>Issues</h2>\n" ++
  (if r.issues.isEmpty then "<p>No issues found.</p>\n" else r.issues.flatMap issue : Text) ++
  "\n</body>\n</html>\n"

end LiteralAudit.Format.Html
