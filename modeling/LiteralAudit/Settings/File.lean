import LiteralAudit.Disk.Basic
import LiteralAudit.Dotenv
import LiteralAudit.Settings.Value
import LiteralAudit.Hcl
import LiteralAudit.Ini
import LiteralAudit.Json.Reader
import LiteralAudit.Properties
import LiteralAudit.Text.Quoted
import LiteralAudit.Toml
import LiteralAudit.Yaml.Decode

/-!
# Files of settings

The ending of a file's name says how its settings are written. `SettingsFile.load` reads a file and
`SettingsFile.find` looks for one in a list of directories.
-/

namespace LiteralAudit.SettingsFile

/-- The notations of settings. -/
inductive Form where
  | json
  | toml
  | yaml
  | properties
  | hcl
  | dotenv
  | ini
  deriving Repr, DecidableEq

/-- The endings of files of settings in the order in which they are looked for. -/
def endings : List (Text × Form) :=
  [("json", .json), ("toml", .toml), ("yaml", .yaml), ("yml", .yaml), ("properties", .properties),
    ("props", .properties), ("prop", .properties), ("hcl", .hcl), ("tfvars", .hcl),
    ("dotenv", .dotenv), ("env", .dotenv), ("ini", .ini)]

/-- Why a file of settings cannot be read. -/
inductive Error where
  | disk (cause : DiskError)
  | unsupported (ending : Text)
  | malformed
  /-- A quoted text has an escape that denotes no character. -/
  | escape
  deriving Repr, DecidableEq

def Error.message : Error → Text
  | disk cause => cause.message
  | unsupported ending => "Unsupported Config Type " ++ ending.quoted
  | malformed => "<cause>"
  | escape => "unquote err: invalid syntax"

/-- The settings of properties. The points of a key divide the names of a path. -/
def ofProperties (properties : List (Text × Text)) : List (Text × Setting) :=
  properties.foldl (fun entries (key, value) =>
    let path := Text.splitOn '.' key
    let path := path.dropLast ++ (path.getLast?.map Text.toLower).toList
    Setting.putPath (.text value) path entries) []

/-- The settings of sections. The points in the name of a section divide the names of a path. -/
def ofSections (sections : List Ini.Section) : List (Text × Setting) :=
  sections.foldl (fun entries s =>
    s.keys.foldl (fun entries (key, value) =>
      Setting.putPath (.text value) (Text.splitOn '.' s.name ++ [key]) entries) entries) []

/-- The settings of variables, the last one of each name. -/
def ofVariables (vs : List (Text × Text)) : List (Text × Setting) :=
  vs.foldl (fun entries (name, value) => Setting.put name (.text value) entries) []

/-- The settings that a node of YAML gives; one that is null gives none. -/
def ofYaml? (node : Yaml.Node) : Option (List (Text × Setting)) :=
  if !node.isExpandable then none
  else match Setting.ofNode? Setting.nodeDepth node with
    | some (.table entries) => some entries
    | some .null => some []
    | _ => none

/-- The settings that a value of JSON gives; null gives none. -/
def ofJson? (j : Json) : Option (List (Text × Setting)) :=
  match Setting.ofJson? j with
  | some (.table entries) => some entries
  | some .null => some []
  | _ => none

/-- The settings of a text. -/
def read (e : Environment) (form : Form) (source : Text) : Except Error (List (Text × Setting)) :=
  let orMalformed (settings? : Option (List (Text × Setting))) :
      Except Error (List (Text × Setting)) :=
    match settings? with
    | some settings => .ok settings
    | none => .error .malformed
  match form with
  | .json => orMalformed ((Json.read? source).bind ofJson?)
  | .toml => orMalformed (Toml.read? source)
  | .yaml => orMalformed <| match Yaml.document? source with
    | none => none
    | some none => some []
    | some (some node) => ofYaml? node
  | .properties =>
    orMalformed ((Properties.read? (fun name => (e.value? name).getD []) source).map ofProperties)
  | .hcl => match Hcl.read source with
    | .ok settings => .ok settings
    | .error .malformed => .error .malformed
    | .error .escape => .error .escape
  | .dotenv => orMalformed ((Dotenv.read? e.value? source).map ofVariables)
  | .ini => orMalformed ((Ini.read? source).map ofSections)

/-- The settings of a file. -/
def load (d : Disk) (e : Environment) (path : Text) : Except Error (List (Text × Setting)) :=
  let ending := (Path.extension path).drop 1
  match endings.lookup ending with
  | none => .error (.unsupported ending)
  | some form =>
    match d.contentOf path with
    | .error cause => .error (.disk cause)
    | .ok source => read e form source

/-- The names of variables that a text may refer to: what stands behind `$`, in braces or not. -/
def namesIn (source : Text) : List Text :=
  ((Text.splitOn '$' source).drop 1).map fun part =>
    match Text.dropFront? "\x7b" part with
    | some inner => inner.takeWhile (·.toNat != 0x7D)
    | none => part.takeWhile Dotenv.isVariable

/-- The first file of settings with a name in one of the directories. -/
def find (d : Disk) (name : Text) (dirs : List Text) : Option Text :=
  (dirs.flatMap fun dir => endings.map fun (ending, _) =>
    Path.join [dir, name ++ "." ++ ending]).find? fun path =>
      match d.stat path with
      | .ok e => !e.isDir
      | .error _ => false

end LiteralAudit.SettingsFile
