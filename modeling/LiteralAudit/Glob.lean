import LiteralAudit.Path
import LiteralAudit.Regex.Search
import LiteralAudit.Text.Quoted
import LiteralAudit.Unicode.Case

/-!
# Globs

A glob selects files by their path below the scanned directory. `*` and `?` stay within one part of a
path, `**` crosses slashes and `**/` stands for any number of directories, none included. A glob
without a slash looks at the name of a file only.

A `Selection` holds the globs that a file must match, if there are any, and those that it must not.
-/

namespace LiteralAudit

structure Glob where
  /-- The glob as it is written. -/
  source : Text
  pattern : Pattern
  /-- The glob looks at whole paths. -/
  ofPath : Bool
  deriving Inhabited

namespace Glob

/-- Characters that mean themselves in a glob and something else in an expression. -/
def isSpecial (c : Char) : Bool :=
  ['.', '+', '(', ')', '[', ']', '\x7b', '\x7d', '^', '$', '|', '\\'].contains c

/-- The expression of the characters of a glob. -/
def expressionOf : List Char → Text
  | '*' :: '*' :: '/' :: rest => "(?:.*/)?" ++ expressionOf rest
  | '*' :: '*' :: rest => ".*" ++ expressionOf rest
  | '*' :: rest => "[^/]*" ++ expressionOf rest
  | '?' :: rest => "[^/]" ++ expressionOf rest
  | c :: rest => (if isSpecial c then "\\" else [] : Text) ++ Text.ofChar c ++ expressionOf rest
  | [] => []

/-- The expression that a glob stands for. -/
def expression (glob : Text) : Text := "^" ++ expressionOf glob.chars ++ "$"

/-- Why a glob cannot be compiled. -/
structure Error where
  source : Text
  cause : Regex.Error

def Error.message (e : Error) : Text := "glob " ++ e.source.quoted ++ ": " ++ e.cause.message

/-- The globs of a list; blank ones do not count. -/
def compile (sources : List Text) : Except Error (List Glob) :=
  ((sources.map Text.trimSpace).filter (!·.isEmpty)).mapM fun source =>
    match Pattern.compile (expression (Text.dropFront "./" source)) with
    | .ok pattern => .ok { source, pattern, ofPath := source.contains '/' }
    | .error cause => .error ⟨source, cause⟩

/-- Whether a glob selects a path, whose name is `base`. -/
def selects (g : Glob) (path base : Text) : Bool :=
  g.pattern.matchesIn (if g.ofPath then path else base)

/-- Whether one of the globs excludes a path. One that excludes everything in a directory excludes
the directory, too. -/
def excludes (gs : List Glob) (path base : Text) (isDir : Bool) : Bool :=
  gs.any fun g =>
    g.selects path base || (isDir && g.ofPath && g.pattern.matchesIn (path ++ "/"))

end Glob

/-- Which files of a directory are looked at. -/
structure Selection where
  /-- A file must match one of these, unless there are none. -/
  included : List Glob
  excluded : List Glob
  deriving Inhabited

namespace Selection

def includes (s : Selection) (path base : Text) : Bool :=
  s.included.isEmpty || s.included.any (·.selects path base)

/-- Whether a file is looked at, or a directory descended into. -/
def isRelevant (s : Selection) (path : Text) (isDir : Bool) : Bool :=
  let base := Path.base path
  !Glob.excludes s.excluded path base isDir && (isDir || s.includes path base)

end Selection

end LiteralAudit
