import LiteralAudit.Text.Basic

/-!
# Slash-separated paths

Names of files as the operating system writes them: `clean` removes what does not change which file
is meant, `join` puts paths together, `base`, `parent` and `extension` take them apart, and
`relative?` says how to get from one to the other.
-/

namespace LiteralAudit.Path

/-- The parts between slashes that are not empty. -/
def parts (p : Text) : List Text := (Text.splitOn '/' p).filter (!·.isEmpty)

def isAbsolute (p : Text) : Bool := p.head? == some ('/' : UInt8)

/-- Auxiliary to `clean`: the parts that remain, the last one first. A part `..` takes back the part
before it, unless that is itself `..` or the path starts at the root. -/
def reduce (rooted : Bool) (kept : List Text) (part : Text) : List Text :=
  if part == "." then kept
  else if part == ".." then
    match kept with
    | [] => if rooted then [] else [".."]
    | last :: rest => if last == ".." then part :: kept else rest
  else part :: kept

/-- The shortest path that means the same without looking at the file system. -/
def clean (p : Text) : Text :=
  let rooted := isAbsolute p
  let kept := ((parts p).foldl (reduce rooted) []).reverse
  if rooted then "/" ++ Text.join "/" kept
  else if kept.isEmpty then "." else Text.join "/" kept

/-- Paths put together and cleaned; empty ones do not count. -/
def join (ps : List Text) : Text :=
  let ps := ps.filter (!·.isEmpty)
  if ps.isEmpty then [] else clean (Text.join "/" ps)

/-- The last part of a path: `.` for the empty path and `/` for one of slashes only. -/
def base (p : Text) : Text :=
  if p.isEmpty then "."
  else (parts p).getLast?.getD "/"

/-- The cleaned path without its last part. -/
def parent (p : Text) : Text :=
  match Text.lastIndexOfByte? p '/' with
  | some i => clean (p.take (i + 1))
  | none => "."

/-- The ending of the last part from its last dot on. -/
def extension (p : Text) : Text :=
  let name := match Text.lastIndexOfByte? p '/' with
    | some i => p.drop (i + 1)
    | none => p
  match Text.lastIndexOfByte? name '.' with
  | some i => name.drop i
  | none => []

/-- The parts of a cleaned path; the working directory has none as a place to start from. -/
def places (asStart : Bool) (p : Text) : List Text :=
  let p := clean p
  if asStart && p == "." then [] else parts p

/-- Two lists without what they have in common at the front. -/
def dropCommon : List Text → List Text → List Text × List Text
  | a :: as, b :: bs => if a == b then dropCommon as bs else (a :: as, b :: bs)
  | as, bs => (as, bs)

/-- How to get from a directory to a path without looking at the file system. There is no way when one
of them starts at the root and the other does not, or when the start lies above the common part. -/
def relative? (start goal : Text) : Option Text :=
  if clean start == clean goal then some "."
  else if isAbsolute (clean start) != isAbsolute (clean goal) then none
  else
    let (up, down) := dropCommon (places true start) (places false goal)
    if up.head? == some (Text.ofString "..") then none
    else some (Text.join "/" (up.map (fun _ => Text.ofString "..") ++ down))

end LiteralAudit.Path
