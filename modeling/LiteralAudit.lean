import LiteralAudit.Baseline
import LiteralAudit.Browser
import LiteralAudit.Browser.Grid
import LiteralAudit.Browser.Screen
import LiteralAudit.CommandLine.Flag
import LiteralAudit.CommandLine.Program
import LiteralAudit.Config
import LiteralAudit.Disk.Basic
import LiteralAudit.Dotenv
import LiteralAudit.Format
import LiteralAudit.Format.Course
import LiteralAudit.Format.Html
import LiteralAudit.Format.Plain
import LiteralAudit.Glob
import LiteralAudit.Hcl
import LiteralAudit.Hcl.Node
import LiteralAudit.Hcl.Token
import LiteralAudit.History
import LiteralAudit.Ini
import LiteralAudit.IpAddress
import LiteralAudit.Issue
import LiteralAudit.Json.Basic
import LiteralAudit.Json.Reader
import LiteralAudit.Json.Writer
import LiteralAudit.Library.Basic
import LiteralAudit.Library.Builtin
import LiteralAudit.Library.Pack
import LiteralAudit.Literal.Basic
import LiteralAudit.Literal.Go.Grammar
import LiteralAudit.Literal.Go.Parse
import LiteralAudit.Literal.Go.Scanner
import LiteralAudit.Literal.Go.Statement
import LiteralAudit.Literal.Go.Tree
import LiteralAudit.Literal.Python.Lexer
import LiteralAudit.Literal.Python.Statement
import LiteralAudit.Literal.Quoted
import LiteralAudit.Log
import LiteralAudit.Main
import LiteralAudit.Notify
import LiteralAudit.Notify.Deliveries
import LiteralAudit.Notify.Endpoint
import LiteralAudit.Notify.Payload
import LiteralAudit.Number.Decimal
import LiteralAudit.Number.Integer
import LiteralAudit.Path
import LiteralAudit.Pipeline
import LiteralAudit.Pipeline.Outcome
import LiteralAudit.Policy
import LiteralAudit.Proofs.Browser.Order
import LiteralAudit.Proofs.Browser.Rows
import LiteralAudit.Proofs.Browser.Selected
import LiteralAudit.Proofs.Browser.Shown
import LiteralAudit.Proofs.Disk.Listing
import LiteralAudit.Proofs.Disk.Preorder
import LiteralAudit.Proofs.Disk.Replace
import LiteralAudit.Proofs.Disk.StepsAgree
import LiteralAudit.Proofs.Disk.Walk
import LiteralAudit.Proofs.Disk.WellFormed
import LiteralAudit.Proofs.Format.Csv
import LiteralAudit.Proofs.Format.Junit
import LiteralAudit.Proofs.Glob.Matching
import LiteralAudit.Proofs.History.FileName
import LiteralAudit.Proofs.History.ListedNames
import LiteralAudit.Proofs.History.RunMap
import LiteralAudit.Proofs.History.Stored
import LiteralAudit.Proofs.History.Unreadable
import LiteralAudit.Proofs.Library.DottedQuads
import LiteralAudit.Proofs.Literal.Escapes
import LiteralAudit.Proofs.Literal.Go.Cells
import LiteralAudit.Proofs.Literal.Go.Numbers
import LiteralAudit.Proofs.Literal.Go.PhysicalLines
import LiteralAudit.Proofs.Literal.Go.SourceLiterals
import LiteralAudit.Proofs.Literal.KeptText
import LiteralAudit.Proofs.Literal.Python.Assignments
import LiteralAudit.Proofs.Literal.Python.Brackets
import LiteralAudit.Proofs.Literal.Python.LineEnds
import LiteralAudit.Proofs.Literal.Python.LineNumbers
import LiteralAudit.Proofs.Literal.Python.Numbers
import LiteralAudit.Proofs.Literal.Python.Parameters
import LiteralAudit.Proofs.Notify.Blanks
import LiteralAudit.Proofs.Notify.Isolation
import LiteralAudit.Proofs.Notify.Payload
import LiteralAudit.Proofs.Notify.Secrecy
import LiteralAudit.Proofs.Number.Digits
import LiteralAudit.Proofs.Path.Clean
import LiteralAudit.Proofs.Pipeline.LastGoodRun
import LiteralAudit.Proofs.Pipeline.UnchangedTree
import LiteralAudit.Proofs.Pipeline.Verdict
import LiteralAudit.Proofs.Policy.MoreFindings
import LiteralAudit.Proofs.Policy.Nearest
import LiteralAudit.Proofs.Policy.Threshold
import LiteralAudit.Proofs.Policy.Tightening
import LiteralAudit.Proofs.Regex.Framed
import LiteralAudit.Proofs.Regex.Leads
import LiteralAudit.Proofs.Regex.Numbering
import LiteralAudit.Proofs.Regex.Search
import LiteralAudit.Proofs.Regex.Ways
import LiteralAudit.Proofs.Regex.Words
import LiteralAudit.Proofs.Report.Recommendations
import LiteralAudit.Proofs.Scan.Discovery
import LiteralAudit.Proofs.Scan.Interleaving
import LiteralAudit.Proofs.Scan.Pool
import LiteralAudit.Proofs.Scan.Root
import LiteralAudit.Proofs.Sparkline
import LiteralAudit.Proofs.Text.Cuts
import LiteralAudit.Proofs.Time.Civil
import LiteralAudit.Proofs.Time.RunStamp
import LiteralAudit.Proofs.Tool.AcceptedSettings
import LiteralAudit.Proofs.Tool.ExitCode
import LiteralAudit.Proofs.Tool.OutputFile
import LiteralAudit.Proofs.Url.Parts
import LiteralAudit.Proofs.Visit.Attribution
import LiteralAudit.Proofs.Visit.MoreRules
import LiteralAudit.Proofs.Visit.Ports
import LiteralAudit.Proofs.Visit.Secrets
import LiteralAudit.Proofs.Visit.Suppression
import LiteralAudit.Proofs.Watch.Debounce
import LiteralAudit.Proofs.Watch.Rescan
import LiteralAudit.Properties
import LiteralAudit.Regex.Automaton
import LiteralAudit.Regex.Reader
import LiteralAudit.Regex.Search
import LiteralAudit.Report
import LiteralAudit.Report.Codec
import LiteralAudit.Report.Score
import LiteralAudit.Scan
import LiteralAudit.Scan.Pool
import LiteralAudit.Settings.File
import LiteralAudit.Settings.Value
import LiteralAudit.Sparkline
import LiteralAudit.Terminal.Cells
import LiteralAudit.Text.Base64
import LiteralAudit.Text.Basic
import LiteralAudit.Text.Quoted
import LiteralAudit.Text.Utf8
import LiteralAudit.Time.Duration
import LiteralAudit.Time.Timestamp
import LiteralAudit.Toml
import LiteralAudit.Toml.Value
import LiteralAudit.Tool
import LiteralAudit.Tool.Commands
import LiteralAudit.Tool.Job
import LiteralAudit.Unicode.Case
import LiteralAudit.Unicode.Category
import LiteralAudit.Unicode.CharSet
import LiteralAudit.Unicode.Grapheme
import LiteralAudit.Unicode.Script
import LiteralAudit.Url
import LiteralAudit.Visit
import LiteralAudit.Watch
import LiteralAudit.Whitelist
import LiteralAudit.Yaml.Decode
import LiteralAudit.Yaml.Node
import LiteralAudit.Yaml.Scalar
import LiteralAudit.Yaml.Scanner
