import LiteralAudit.Library.Basic

/-!
# The whitelist

A whitelist names what is acceptable: ports, path beginnings, whole strings, the shape of version
numbers (which look like addresses), and the marks by which test files are known. It only suppresses
findings, and an audit may run without one.
-/

namespace LiteralAudit

/-- A whitelist as it is configured. -/
structure WhitelistConfig where
  ports : List Int := []
  paths : List Text := []
  strings : List Text := []
  versions : List Text := []
  testIndicators : List Text := []
  deriving Inhabited

/-- A whitelist whose entries have been checked. -/
structure Whitelist where
  ports : List Int
  paths : List Text
  strings : List Text
  versions : List Pattern
  testIndicators : List Text
  deriving Inhabited

/-- Why a whitelist configuration is refused. -/
inductive WhitelistError where
  | portOutOfRange (port : Int)
  | emptyPath
  | badVersion (source : Text) (cause : Regex.Error)
  | emptyTestIndicator

def WhitelistError.message : WhitelistError → Text
  | portOutOfRange p => "whitelist: allowed port " ++ Text.ofInt p ++ " out of range 1-65535"
  | emptyPath => "whitelist: empty allowed path prefix"
  | badVersion source cause =>
    "whitelist: version pattern " ++ source.quoted ++ ": " ++ cause.message
  | emptyTestIndicator => "whitelist: empty test indicator"

/-- The built-in whitelist. -/
def WhitelistConfig.builtin : WhitelistConfig where
  ports := [80, 443]
  paths := ["/tmp", "/dev/null", "/dev/stdout", "/dev/stderr", "/proc/"]
  strings := ["127.0.0.1", "0.0.0.0", "localhost", "255.255.255.255", "255.255.255.0"]
  versions := [r"^v\d+(\.\d+)+$", r"^\d+\.\d+\.\d+(?:[-+][0-9A-Za-z.]+)?$"]
  testIndicators := ["/test_", "_test.", "/tests/", "/test/", "conftest.py", "/fixtures/"]

namespace Whitelist

def isBlank (t : Text) : Bool := t.trimSpace.isEmpty

/-- The whitelist of a configuration. The entries are checked in the order ports, paths, version
patterns, test indicators, and the first bad one is reported. -/
def ofConfig (c : WhitelistConfig) : Except WhitelistError Whitelist := do
  if let some p := c.ports.find? fun p => p < 1 || p > 65535 then throw (.portOutOfRange p)
  if c.paths.any isBlank then throw .emptyPath
  let versions ← c.versions.mapM fun s =>
    match Pattern.compile s with
    | .ok p => .ok p
    | .error e => .error (.badVersion s e)
  if c.testIndicators.any isBlank then throw .emptyTestIndicator
  return { c with versions }

/-- Whether the whitelist can suppress any finding. -/
def applies (w : Whitelist) : Bool :=
  !w.ports.isEmpty || !w.paths.isEmpty || !w.strings.isEmpty || !w.versions.isEmpty

/-- Whether a finding is acceptable: `found` is the value reported, in a category, of a literal. -/
def allows (w : Whitelist) (category found literal : Text) : Bool :=
  w.strings.contains found || w.strings.contains literal ||
    (if category == Library.ipAddress then w.versions.any (·.matchesIn literal)
     else if category == Library.port then
       (Number.readDecimal? found).any w.ports.contains
     else if category == Library.filePath then w.paths.any fun p => found.startsWith p
     else false)

/-- Whether a relative path looks like that of a test file. The path is taken with a slash in front
so that an indicator can ask for the start of a name. -/
def isTestFile (w : Whitelist) (path : Text) : Bool :=
  let path := "/" ++ Text.dropFront "/" path
  w.testIndicators.any fun mark => path.includes mark

end Whitelist

end LiteralAudit
