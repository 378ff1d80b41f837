import LiteralAudit.CommandLine.Program
import LiteralAudit.Format
import LiteralAudit.Watch

/-!
# The commands of the tool

Each command with its flags and what its help says about it.
-/

namespace LiteralAudit.Tool

open CommandLine

/-! ## Flags -/

def switch (name usage : Text) : Flag :=
  { name, kind := .switch, builtin := .switch false, usage }

def textFlag (name builtin usage : Text) : Flag := { name, kind := .text, builtin := .text builtin, usage }

def lettered (letter : UInt8) (f : Flag) : Flag := { f with letter? := some letter }

def globalFlags : List Flag :=
  [textFlag "config" [] "config file (default: ./codespectre.yaml or ~/codespectre.yaml)",
   lettered 'v' (switch "verbose" "verbose output"),
   switch "debug" "debug mode (very verbose)"]

def excludeFlag : Flag :=
  { name := "exclude", kind := .separated, builtin := .list [], usage := "additional exclude globs" }

def formatFlag : Flag := textFlag "format" "text" "output format: text or json"

def formatNames : Text := Text.join ", " Format.names

/-! ## Commands -/

def scan : Command where
  name := "scan"
  operands := "<path>"
  summary := "Scan a source tree and print or export the report"
  details := r#"Scan walks a file or directory, analyzes every included file and
produces a report with all issues and the validation score.

Scanning alone never gates: the exit code is 0 whenever the scan
completes, whatever it finds. Use 'codespectre validate' for CI gating.

Without --output the text summary is printed. With --output the format
defaults to the file extension (json, html, csv, xml, sarif).

Example:
  codespectre scan ./service
  codespectre scan ./service -o report.html
  codespectre scan ./service --format json --save"#
  arity := .exactly 1
  flags :=
    [lettered 'o' (textFlag "output" [] "write the report to a file instead of stdout"),
     lettered 'f' (textFlag "format" [] ("output format: " ++ formatNames)),
     switch "save" "store the report in the run history",
     excludeFlag]

def validate : Command where
  name := "validate"
  summary := "Run the pipeline gate: scan, evaluate gates, write artifacts"
  details := r#"Validate scans the project, evaluates the quality gates and writes
the report artifacts (JSON, HTML, CSV, JUnit XML and a Markdown summary)
to the output directory.

Gates come from .codespectre-policy.yaml (searched upward from the
working directory, or --policy) and the flags below. Flags can only
tighten the boolean gates; --score-threshold replaces the policy value.

The performance baseline is compared on every run and rewritten only
when the run passes. A run more than 20% slower than the baseline is
flagged as a regression but does not fail the gate.

Exit codes:
  0  All gates passed
  1  A gate failed
  2  The scan could not run or was interrupted

Example:
  codespectre validate --project-path . --fail-on-critical
  codespectre validate --project-path ./service --score-threshold 85 \
    --slack-webhook https://hooks.slack.com/services/T000/B000/XXXX"#
  flags :=
    [textFlag "project-path" "." "project directory to validate",
     textFlag "output-dir" "validation_results" "directory for report artifacts and the log file",
     switch "fail-on-critical" "fail when any critical issue is found",
     switch "fail-on-high" "fail when any high issue is found",
     switch "fail-on-medium" "fail when any medium issue is found",
     { name := "score-threshold", kind := .real, builtin := .real 0,
       usage := "minimum validation score (0-100)" },
     textFlag "performance-baseline" []
       "performance baseline file (default: <output-dir>/performance_baseline.json)",
     { name := "webhook-url", kind := .repeated, builtin := .list [],
       usage := "webhook to notify with the JSON result (repeatable)" },
     { name := "slack-webhook", kind := .repeated, builtin := .list [],
       usage := "Slack incoming webhook to notify (repeatable)" },
     textFlag "policy" [] "policy file (default: .codespectre-policy.yaml searched upward)",
     excludeFlag,
     switch "no-history" "do not store the report in the run history",
     textFlag "format" "text" "stdout format: text or json"]

def explainScore : Command where
  name := "explain-score"
  operands := "[report.json]"
  summary := "Show the validation score formula step by step"
  details := r#"Explain-score loads a report (the latest stored run by default) and
shows exactly how the validation score was calculated:

  1. Issues per severity and their weights
  2. The weighted total
  3. The maximum possible: files scanned * 10
  4. The formula: score = max(0, 100 - weighted / max * 100)
  5. The readiness level thresholds"#
  arity := .atMost 1
  flags := [formatFlag]

def diff : Command where
  name := "diff"
  operands := "[before.json after.json]"
  summary := "Show what changed between two reports"
  details := r#"Compare two reports to show new and resolved issues.

Issues are matched by file, type, pattern and description, so an issue
that only moved to another line is not reported as new.

By default compares the two most recent stored runs. With one argument
the given report is compared against the latest stored run; with two
arguments both reports are read from files.

Exit codes:
  0  No new issues (or --fail-new not set)
  1  New issues detected (with --fail-new)

Example:
  codespectre diff
  codespectre diff --fail-new
  codespectre diff baseline.json --format json"#
  arity := .atMost 2
  flags :=
    [lettered 'f' formatFlag,
     lettered 'o' (textFlag "output" [] "write output to file instead of stdout"),
     switch "fail-new" "exit 1 if new issues are found (for CI gating)"]

def history : Command where
  name := "history"
  summary := "Show score and issue trends across stored runs"
  details := r#"History lists the most recent stored runs with their score and
issue counts, and draws sparklines of both over time.

Runs are stored by 'codespectre scan --save' and 'codespectre validate'.

Example:
  codespectre history
  codespectre history --last 30 --format json"#
  arity := .none
  flags :=
    [{ name := "last", letter? := some 'n', kind := .int, builtin := .int 10,
       usage := "number of runs to show" },
     lettered 'f' formatFlag]

def exportReport : Command where
  name := "export"
  operands := "[report.json]"
  summary := "Re-render a stored or saved report"
  details := r#"Export renders an existing JSON report in another format without
scanning again. Without an argument the latest stored run is used.

Supported formats:
  json   Structured JSON
  html   Standalone HTML page
  csv    One row per issue
  junit  JUnit XML, one testcase per file with issues
  sarif  SARIF 2.1.0 for code scanning
  text   Human-readable summary

Example:
  codespectre export --format junit -o results.xml
  codespectre export validation_results/validation_report_20260301_120000.json --format sarif"#
  arity := .atMost 1
  flags :=
    [lettered 'f' (textFlag "format" []
       ("output format: " ++ formatNames ++ " (default from --output extension)")),
     lettered 'o' (textFlag "output" [] "write output to file (default: stdout)")]

def browse : Command where
  name := "browse"
  operands := "[report.json]"
  summary := "Browse issues interactively"
  details := r#"Browse opens an interactive issue table for a report (the latest
stored run by default). Filter by issue type (t) or severity (v), search
(/), cycle the sort order (s), jump between files (n/N) and copy the
selected issue (c).

Requires an interactive terminal."#
  arity := .atMost 1

def watch : Command where
  name := "watch"
  operands := "<dir>"
  summary := "Re-scan a directory whenever files change"
  details := r#"Watch scans the directory once, then re-scans after every burst of
changes to included files and prints the summary with the change against
the previous scan. Excluded directories are not watched.

Stop with Ctrl+C.

Example:
  codespectre watch ./service
  codespectre watch . --debounce 1s --save"#
  arity := .exactly 1
  flags :=
    [{ name := "debounce", kind := .duration, builtin := .duration Watch.defaultQuiet,
       usage := "quiet period before re-scanning" },
     switch "save" "store every scan in the run history",
     { name := "limit", kind := .int, builtin := .int 10,
       usage := "number of issues listed per scan" }]

def initialConfig : Command where
  name := "init"
  summary := "Write a sample configuration file"
  details := r#"Init writes a commented sample configuration with the default include
and exclude patterns, whitelist and notification settings.

Example:
  codespectre init
  codespectre init --path ci/codespectre.yaml --force"#
  arity := .none
  flags :=
    [textFlag "path" "codespectre.yaml" "where to write the configuration",
     switch "force" "overwrite an existing file"]

def version : Command where
  name := "version"
  summary := "Show version information"
  details := "Show version information"

def help : Command where
  name := "help"
  operands := "[command]"
  summary := "Help about any command"
  details := r#"Help provides help for any command in the application.
Simply type codespectre help [path to command] for full details."#

/-- A command that writes the script with which a shell completes command lines. -/
def completionFor (shell details : Text) : Command where
  name := shell
  summary := "Generate the autocompletion script for " ++ shell
  details := details
  arity := .none
  flags := [switch "no-descriptions" "disable completion descriptions"]

def bashCompletion : Command :=
  { completionFor "bash" r#"Generate the autocompletion script for the bash shell.

This script depends on the 'bash-completion' package.
If it is not installed already, you can install it via your OS's package manager.

To load completions in your current shell session:

	source <(codespectre completion bash)

To load completions for every new session, execute once:

#### Linux:

	codespectre completion bash > /etc/bash_completion.d/codespectre

#### macOS:

	codespectre completion bash > $(brew --prefix)/etc/bash_completion.d/codespectre

You will need to start a new shell for this setup to take effect."# with
    tellsFlags := false }

def zshCompletion : Command :=
  completionFor "zsh" r#"Generate the autocompletion script for the zsh shell.

If shell completion is not already enabled in your environment you will need
to enable it.  You can execute the following once:

	echo "autoload -U compinit; compinit" >> ~/.zshrc

To load completions in your current shell session:

	source <(codespectre completion zsh)

To load completions for every new session, execute once:

#### Linux:

	codespectre completion zsh > "${fpath[1]}/_codespectre"

#### macOS:

	codespectre completion zsh > $(brew --prefix)/share/zsh/site-functions/_codespectre

You will need to start a new shell for this setup to take effect."#

def fishCompletion : Command :=
  completionFor "fish" r#"Generate the autocompletion script for the fish shell.

To load completions in your current shell session:

	codespectre completion fish | source

To load completions for every new session, execute once:

	codespectre completion fish > ~/.config/fish/completions/codespectre.fish

You will need to start a new shell for this setup to take effect."#

def powershellCompletion : Command :=
  completionFor "powershell" r#"Generate the autocompletion script for powershell.

To load completions in your current shell session:

	codespectre completion powershell | Out-String | Invoke-Expression

To load completions for every new session, add the output of the above command
to your powershell profile."#

def completion : Command where
  name := "completion"
  summary := "Generate the autocompletion script for the specified shell"
  details := r#"Generate the autocompletion script for codespectre for the specified shell.
See each sub-command's help for details on how to use the generated script."#
  arity := .none
  runs := false
  commands := [bashCompletion, zshCompletion, fishCompletion, powershellCompletion]

/-- The tool with its commands. -/
def program : Program where
  name := "codespectre"
  details := r#"CodeSpectre scans Go and Python source trees for hardcoded values
(credentials, API keys, connection strings, IPs, ports, URLs, file paths)
and deprecated architecture patterns, and scores the tree from 0 to 100.

The validate command runs the full pipeline gate: scan, score, policy
gates, performance baseline, report artifacts and notifications.

Quick start:
  codespectre scan ./service
  codespectre validate --project-path ./service --fail-on-critical
  codespectre browse

Other commands:
  codespectre explain-score
  codespectre diff --fail-new
  codespectre history
  codespectre export --format junit -o report.xml
  codespectre watch ./service"#
  commands :=
    [scan, validate, explainScore, diff, history, exportReport, browse, watch, initialConfig, version,
     help, completion]
  flags := globalFlags

end LiteralAudit.Tool
