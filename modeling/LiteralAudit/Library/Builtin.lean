import LiteralAudit.Library.Basic

/-!
# The built-in library

The categories, rules and deprecated patterns that every audit starts from.
-/

namespace LiteralAudit.Library

/-- The built-in categories. -/
def builtinCategories : List Category :=
  [⟨"api_key_pattern", "hardcoded_api_key", .critical,
     "Load API keys from a secret manager or environment variable and rotate the exposed key"⟩,
   ⟨"password_pattern", "hardcoded_password", .critical,
     "Move the password to a secret store and inject it at runtime"⟩,
   ⟨"hardcoded_credentials", "hardcoded_credentials", .critical,
     "Read tokens and private keys from the environment or a mounted secret"⟩,
   ⟨"database_connection", "hardcoded_database_connection", .high,
     "Build the connection string from configuration instead of embedding it"⟩,
   ⟨"ip_address", "hardcoded_ip_address", .high,
     "Resolve hosts through configuration or service discovery"⟩,
   ⟨"port", "hardcoded_port", .medium,
     "Make the port configurable via environment or config file"⟩,
   ⟨"url", "hardcoded_url", .medium,
     "Move endpoint URLs into configuration"⟩,
   ⟨"file_path", "hardcoded_file_path", .low,
     "Derive paths from configuration or relative to the application root"⟩,
   ⟨"deprecated_architecture_pattern", "deprecated_architecture_pattern", .high,
     "Replace the legacy construct with explicit dependency injection"⟩]

/-- The built-in rules. -/
def builtinRules : List RuleSource :=
  [ { id := "aws-access-key", category := "api_key_pattern", sensitive := true,
      value := r"\b(AKIA[0-9A-Z]{16})\b",
      description := "AWS access key id" },
    { id := "github-token", category := "api_key_pattern", sensitive := true,
      value := r"\b(gh[pousr]_[A-Za-z0-9]{36,})\b",
      description := "GitHub token" },
    { id := "openai-style-key", category := "api_key_pattern", sensitive := true,
      value := r"\b(sk-[A-Za-z0-9_-]{20,})",
      description := "secret API key" },
    { id := "slack-token", category := "api_key_pattern", sensitive := true,
      value := r"\b(xox[abposr]-[A-Za-z0-9-]{10,})",
      description := "Slack token" },
    { id := "google-api-key", category := "api_key_pattern", sensitive := true,
      value := r"\b(AIza[0-9A-Za-z_-]{35})",
      description := "Google API key" },
    { id := "api-key-binding", category := "api_key_pattern", sensitive := true,
      binding := r"(?i)api[_-]?key",
      description := "API key" },
    { id := "password-binding", category := "password_pattern", sensitive := true,
      binding := r"(?i)(passwd|password|pwd|passphrase)",
      description := "password" },
    { id := "password-inline", category := "password_pattern", sensitive := true,
      value := r#"(?i)\b(?:password|passwd|pwd)\s*[=:]\s*([^\s;&'"]+)"#,
      description := "inline password" },
    { id := "credential-binding", category := "hardcoded_credentials", sensitive := true,
      binding := r"(?i)(secret|token|credential|private[_-]?key|access[_-]?key|auth[_-]?key)",
      description := "credential" },
    { id := "private-key-block", category := "hardcoded_credentials", sensitive := true,
      value := r"(-----BEGIN (?:RSA |EC |DSA |OPENSSH )?PRIVATE KEY-----)",
      description := "private key" },
    { id := "db-connection-uri", category := "database_connection", sensitive := true,
      value := r#"(?i)\b((?:postgres(?:ql)?|mysql|mariadb|mongodb(?:\+srv)?|rediss?|mssql|sqlserver|oracle|amqps?|cassandra|clickhouse)://[^\s'"<>]+)"#,
      description := "database connection string" },
    { id := "ipv4-address", category := "ip_address",
      value := r"\b((?:25[0-5]|2[0-4]\d|1\d\d|[1-9]?\d)(?:\.(?:25[0-5]|2[0-4]\d|1\d\d|[1-9]?\d)){3})\b",
      description := "IP address" },
    { id := "numeric-port", category := "port", portRange := true,
      numeric := r"^([1-9]\d{3,4})$",
      description := "port number" },
    { id := "host-port", category := "port", portRange := true,
      value := r"(?i)(?:localhost|\d{1,3}(?:\.\d{1,3}){3}|[a-z0-9-]+(?:\.[a-z0-9-]+)+|\[[0-9a-f:]+\]|[a-z][a-z0-9_-]*):(\d{2,5})\b",
      description := "port" },
    { id := "listen-port", category := "port", portRange := true,
      value := r"^:(\d{2,5})$",
      description := "port" },
    { id := "url", category := "url",
      value := r#"(?i)\b((?:https?|ftp|wss?)://[^\s'"<>]+)"#,
      description := "URL" },
    { id := "unix-path", category := "file_path",
      value := r#"^(/(?:etc|var|usr|opt|home|root|srv|mnt|tmp|data|Users|Library|app|run|dev|proc)(?:/[^\s/:*?"<>|]+)+/?)$"#,
      description := "file path" },
    { id := "windows-path", category := "file_path",
      value := r#"^([A-Za-z]:\\[^\s:*?"<>|]*)$"#,
      description := "Windows path" },
    { id := "legacy-construct", category := "deprecated_architecture_pattern",
      value := r"\b(ServiceLocator|GlobalRegistry|global_(?:registry|container|state)|legacy_(?:component|adapter|handler)|Legacy\w*(?:Manager|Factory|Adapter))\b",
      description := "reference to deprecated construct" }]

/-- The built-in deprecated patterns. -/
def builtinDeprecated : List Text :=
  [r"\bServiceLocator\b",
   r"\bglobal_(registry|container|state)\b",
   r"\blegacy_(component|adapter|handler)\b",
   r"\bLegacy\w*(Manager|Factory)\b",
   r"\bget_global_instance\s*\("]

/-- The built-in library. Its patterns are all well formed, so no rule is left out. -/
def builtin : Library where
  categories := builtinCategories
  rules := builtinRules.filterMap fun r => r.compile.toOption
  deprecated := (compileDeprecated builtinDeprecated).toOption.getD []

end LiteralAudit.Library
