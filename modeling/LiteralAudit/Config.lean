import LiteralAudit.Settings.Value
import LiteralAudit.Library.Builtin
import LiteralAudit.Library.Pack
import LiteralAudit.Notify.Endpoint
import LiteralAudit.Settings.File
import LiteralAudit.Whitelist

/-!
# Configuration

What a run is configured with: built-in values, which a file of settings overrides, which variables of
the environment override. `Config.load` puts the three together and checks the result, so that a
configuration that was loaded has a whitelist, a library and endpoints that work.
-/

namespace LiteralAudit

structure Config where
  included : List Text := List.map Text.ofString ["*.py", "*.go"]
  excluded : List Text := List.map Text.ofString ["**/.git/**", "**/__pycache__/**",
    "**/node_modules/**", "**/venv/**", "**/.venv/**", "**/build/**", "**/dist/**", "**/vendor/**",
    "*.pyc"]
  whitelist : WhitelistConfig := .builtin
  /-- Patterns that replace the built-in deprecated ones, unless there are none. -/
  deprecated : List Text := []
  /-- A file with a rule pack; none when empty. -/
  rulesFile : Text := []
  /-- How many files are read at once; 0 leaves it to the machine. -/
  workers : Int := 0
  progressInterval : Int := 50
  storageDir : Text := ".codespectre"
  logFile : Text := []
  logMaxSize : Int := 10
  logMaxBackups : Int := 3
  threshold : Float := 0
  webhooks : List Text := []
  slack : List Text := []
  notifyTimeout : Duration := ⟨10 * Duration.second⟩
  verbose : Bool := false
  debug : Bool := false
  /-- The file that was read; empty when none was. -/
  file : Text := []
  /-- A file that was asked for and is not there. -/
  missingFile : Text := []
  deriving Inhabited

namespace Config

/-! ## Checks -/

/-- What is wrong with a configuration. -/
inductive Fault where
  | noIncluded
  | workers
  | progressInterval
  | threshold
  | noStorage
  | logRotation
  | notifyTimeout
  | whitelist (cause : WhitelistError)
  | deprecated (cause : Library.DeprecatedError)
  | endpoint (address : Text) (cause : Endpoint.Fault)

def Fault.message : Fault → Text
  | noIncluded => "include_patterns cannot be empty"
  | workers => "workers cannot be negative"
  | progressInterval => "progress_interval cannot be negative"
  | threshold => "score_threshold must be between 0 and 100"
  | noStorage => "storage_dir cannot be empty"
  | logRotation => "log rotation settings cannot be negative"
  | notifyTimeout => "notify_timeout cannot be negative"
  | whitelist cause => cause.message
  | deprecated cause => "deprecated_patterns: " ++ cause.message
  | endpoint address cause =>
    "notification endpoint " ++ Endpoint.redacted address ++ ": " ++ cause.message

/-- The first of some addresses that is no endpoint. -/
def endpointFault? (addresses : List Text) : Option Fault :=
  addresses.findSome? fun a => (Endpoint.fault? a).map (.endpoint a)

/-- The first thing that is wrong with a configuration. -/
def fault? (c : Config) : Option Fault :=
  if c.included.isEmpty then some .noIncluded
  else if c.workers < 0 then some .workers
  else if c.progressInterval < 0 then some .progressInterval
  else if c.threshold < 0 || c.threshold > 100 then some .threshold
  else if c.storageDir.isEmpty then some .noStorage
  else if c.logMaxSize < 0 || c.logMaxBackups < 0 then some .logRotation
  else if c.notifyTimeout.nanos < 0 then some .notifyTimeout
  else match Whitelist.ofConfig c.whitelist, Library.compileDeprecated c.deprecated with
    | .error e, _ => some (.whitelist e)
    | .ok _, .error e => some (.deprecated e)
    | .ok _, .ok _ => endpointFault? (c.webhooks ++ c.slack)

/-! ## Layers -/

/-- The layers above the built-in values: the variables over the file. -/
structure Layers where
  environment : Environment := {}
  file : List (Text × Setting) := []

namespace Layers

/-- A setting of the upper layers. -/
def get? (l : Layers) (name : Text) : Option Setting :=
  (l.environment.setting? name).or (Setting.lookup? l.file name)

/-- A setting, with its built-in value when no layer gives it. -/
def read? (l : Layers) (name : Text) (convert? : Setting → Option α) (builtin : α) : Option α :=
  match l.get? name with
  | none => some builtin
  | some s => convert? s

/-- What the file gives for the group of the whitelist. A file can also name a setting of the group by
its full name. -/
def whitelistOfFile? (l : Layers) (name : Text) : Option Setting :=
  match Setting.lookup? l.file ("whitelist." ++ name) with
  | some s => some s
  | none =>
    match Setting.lookup? l.file "whitelist" with
    | some (.table entries) => Setting.lookup? entries name
    | _ => none

/-- A setting of the whitelist. A variable for the whole group hides what the file and the built-in
values give, and leaves `missing`. -/
def whitelistField? (l : Layers) (name : Text) (convert? : Setting → Option α) (builtin missing : α) :
    Option α :=
  match l.environment.setting? ("whitelist." ++ name) with
  | some s => convert? s
  | none =>
    if (l.environment.setting? "whitelist").isSome then some missing
    else match l.whitelistOfFile? name with
      | some s => convert? s
      | none => some builtin

/-- Whether the file has a single value in place of the group of the whitelist. -/
def whitelistIsSingle (l : Layers) : Bool :=
  match Setting.find? l.file "whitelist" with
  | some (.table _) => false
  | some _ => true
  | none => false

def texts? : Setting → Option (List Text) := Setting.list? Setting.text? []

/-- The whitelist. A single value for the whole group is refused, unless it is null. -/
def whitelist? (l : Layers) : Option WhitelistConfig :=
  let builtin := WhitelistConfig.builtin
  if l.whitelistIsSingle then
    match l.get? "whitelist" with
    | none => some builtin
    | some _ => none
  else do
    return {
      ports := ← l.whitelistField? "allowed_ports" (Setting.list? Setting.int? 0) builtin.ports []
      paths := ← l.whitelistField? "allowed_paths" texts? builtin.paths []
      strings := ← l.whitelistField? "allowed_strings" texts? builtin.strings []
      versions := ← l.whitelistField? "version_patterns" texts? builtin.versions []
      testIndicators := ← l.whitelistField? "test_indicators" texts? builtin.testIndicators [] }

/-- The configuration that the layers give; none when a value cannot be converted. -/
def config? (l : Layers) : Option Config := do
  let b : Config := {}
  return {
    included := ← l.read? "include_patterns" texts? b.included
    excluded := ← l.read? "exclude_patterns" texts? b.excluded
    whitelist := ← l.whitelist?
    deprecated := ← l.read? "deprecated_patterns" texts? []
    rulesFile := ← l.read? "rules_file" Setting.text? []
    workers := ← l.read? "workers" Setting.int? b.workers
    progressInterval := ← l.read? "progress_interval" Setting.int? b.progressInterval
    storageDir := ← l.read? "storage_dir" Setting.text? b.storageDir
    logFile := ← l.read? "log_file" Setting.text? []
    logMaxSize := ← l.read? "log_max_size_mb" Setting.int? b.logMaxSize
    logMaxBackups := ← l.read? "log_max_backups" Setting.int? b.logMaxBackups
    threshold := ← l.read? "score_threshold" Setting.float? b.threshold
    webhooks := ← l.read? "webhook_urls" texts? []
    slack := ← l.read? "slack_webhooks" texts? []
    notifyTimeout := ← l.read? "notify_timeout" Setting.duration? b.notifyTimeout
    verbose := ← l.read? "verbose" Setting.bool? false
    debug := ← l.read? "debug" Setting.bool? false }

end Layers

/-- The names of all settings. -/
def settingNames : List Text :=
  ["include_patterns", "exclude_patterns", "whitelist", "whitelist.allowed_ports",
    "whitelist.allowed_paths", "whitelist.allowed_strings", "whitelist.version_patterns",
    "whitelist.test_indicators", "deprecated_patterns", "rules_file", "workers",
    "progress_interval", "storage_dir", "log_file", "log_max_size_mb", "log_max_backups",
    "score_threshold", "webhook_urls", "slack_webhooks", "notify_timeout", "verbose", "debug"]

/-! ## Loading -/

/-- Why a configuration cannot be loaded. -/
inductive Error where
  | file (cause : SettingsFile.Error)
  | undecodable
  | invalid (cause : Fault)

def Error.message : Error → Text
  | file cause => "failed to read config file: " ++ cause.message
  | undecodable => "failed to unmarshal config: <cause>"
  | invalid cause => "invalid config: " ++ cause.message

/-- The directories in which a file of settings is looked for. -/
def searchDirs (d : Disk) (e : Environment) : List Text :=
  [d.cwd, d.absolute e.home] ++ match e.get? "XDG_CONFIG_HOME" with
    | some dir => [d.absolute (Path.join [dir, "codespectre"])]
    | none => []

/-- The file of settings to read, and the one that is not there. -/
def chooseFile (d : Disk) (e : Environment) (path : Text) : Except Error (Text × Text) :=
  if path.isEmpty then .ok ((SettingsFile.find d "codespectre" (searchDirs d e)).getD [], [])
  else match d.stat path with
    | .ok _ => .ok (path, [])
    | .error cause => if cause.isMissing then .ok ([], path) else .error (.file (.disk cause))

/-- The configuration of a run. An empty path looks for a file in the usual places. -/
def load (d : Disk) (e : Environment) (path : Text) : Except Error Config := do
  let (file, missing) ← chooseFile d e path
  let settings ← if file.isEmpty then pure [] else match SettingsFile.load d e file with
    | .ok s => pure s
    | .error cause => throw (.file cause)
  match Layers.config? ⟨e, settings⟩ with
  | none => throw .undecodable
  | some c =>
    let c := { c with file := file, missingFile := missing }
    match c.fault? with
    | some f => throw (.invalid f)
    | none => return c

/-! ## What a configuration stands for -/

/-- Why there is no library for a configuration. -/
inductive LibraryError where
  | read (cause : DiskError)
  | malformed
  | pack (file : Text) (cause : PackError)
  | deprecated (cause : Library.DeprecatedError)

def LibraryError.message : LibraryError → Text
  | read cause => "read rule pack: " ++ cause.message
  | malformed => RulePack.malformed
  | pack file cause => "rules file " ++ file ++ ": " ++ cause.message
  | deprecated cause => cause.message

/-- The built-in library with the rule pack of the configuration. -/
def extendedLibrary (c : Config) (d : Disk) : Except LibraryError Library :=
  if c.rulesFile.isEmpty then .ok Library.builtin
  else match d.contentOf c.rulesFile with
    | .error e => .error (.read e)
    | .ok source =>
      match RulePack.read? source with
      | none => .error .malformed
      | some pack =>
        match Library.builtin.extend pack with
        | .ok l => .ok l
        | .error e => .error (.pack c.rulesFile e)

/-- The library of the configuration. -/
def library (c : Config) (d : Disk) : Except LibraryError Library := do
  let l ← c.extendedLibrary d
  match l.withDeprecated c.deprecated with
  | .ok l => return l
  | .error e => throw (.deprecated e)

/-- The directory of the history, as an absolute path. -/
def storagePath (c : Config) (d : Disk) (e : Environment) : Text :=
  match Text.dropFront? "~/" c.storageDir with
  | some rest => Path.join [e.home, rest]
  | none => d.absolute c.storageDir

/-- A file of settings to start from. -/
def sample : Text :=
  r#"# codespectre configuration
# Save this file as ./codespectre.yaml or ~/codespectre.yaml.
# JSON with the same keys is accepted as codespectre.json.

include_patterns: ["*.py", "*.go"]
exclude_patterns:
  - "**/.git/**"
  - "**/__pycache__/**"
  - "**/node_modules/**"
  - "**/venv/**"
  - "**/build/**"
  - "*.pyc"

whitelist:
  allowed_ports: [80, 443]
  allowed_paths: ["/tmp", "/dev/null"]
  allowed_strings: ["127.0.0.1", "0.0.0.0", "localhost"]
  version_patterns: ['^v\d+(\.\d+)+$']
  test_indicators: ["/test_", "_test.", "/tests/", "/fixtures/"]

# Extra rules and categories (YAML rule pack)
# rules_file: codespectre-rules.yaml

# Worker goroutines (default: number of CPUs)
# workers: 8

# Directory for run history used by diff, history and trend
storage_dir: .codespectre

# Minimum validation score for validate
score_threshold: 0

# Notifications sent by validate
# webhook_urls: ["https://ci.example.com/hooks/codespectre"]
# slack_webhooks: ["https://hooks.slack.com/services/..."]
notify_timeout: 10s
"#

end Config

end LiteralAudit
