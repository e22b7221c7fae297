import Palworld.Config.Pipeline

/-!
# The portal's own configuration

`AppSettings` takes each field from the environment or from the INI. The INI source hands
on every key under its own name, in upper case and under a table of aliases.
-/

open Lib

namespace Palworld.Config

/-- The annotation of a field, with the checks it has. -/
inductive FieldType
  | str
  | optionalStr                     -- `str | None`
  | int
  | intGe (least : Int)             -- `int` with `ge`
  | bool
  | literal (choices : List Text)
  | githubRepoUrl                   -- `str` with `validate_github_repo_url`

inductive FieldValue
  | str (s : Text)
  | int (n : Int)
  | bool (b : Bool)
  | none
  deriving DecidableEq

structure HostDefaults where
  iniPath : Text
  backupDir : Text
  logDir : Text
  dbPath : Text
  metricsDbPath : Text
  hostIp : Text

/-- A field of `AppSettings`. `populate_by_name` adds the name itself to the names it is read by. -/
structure AppField (F : Type) where
  name : Text
  aliases : List Text
  type : FieldType
  default : HostDefaults → PyValue F

def AppField.lookupNames {F : Type} (f : AppField F) : List Text := f.aliases ++ [f.name]

section Fields

variable {F : Type}

def smallInt (n : Nat) (h : n < 10 ^ 5) : PyInt :=
  ⟨n, Nat.lt_of_lt_of_le h (Nat.pow_le_pow_right (by decide) (by decide))⟩

def strField (name : String) (aliases : List String) (default : String) : AppField F :=
  ⟨lit name, aliases.map lit, .str, fun _ => .str (lit default)⟩

def pathField (name : String) (aliases : List String) (default : HostDefaults → Text) : AppField F :=
  ⟨lit name, aliases.map lit, .str, fun host => .str (default host)⟩

def optionalField (name : String) (aliases : List String) : AppField F :=
  ⟨lit name, aliases.map lit, .optionalStr, fun _ => .none⟩

def intField (name : String) (aliases : List String) (default : PyInt) : AppField F :=
  ⟨lit name, aliases.map lit, .int, fun _ => .int default⟩

def boolField (name : String) (aliases : List String) (default : Bool) : AppField F :=
  ⟨lit name, aliases.map lit, .bool, fun _ => .bool default⟩

/-- `AliasChoices("PALWORLD_X", "X", "x")`. -/
def aliasChoices (upperName name : String) : List String := ["PALWORLD_" ++ upperName, upperName, name]

def appFields : List (AppField F) :=
  [strField "AdminPassword" ["ADMIN_PASSWORD"] "admin_password",
    strField "ServerPassword" ["SERVER_PASSWORD"] "",
    strField "ServerName" ["SERVER_NAME"] "Palworld Dedicated Server",
    strField "ServerDescription" ["SERVER_DESCRIPTION"] "",
    intField "PublicPort" ["PUBLIC_PORT"] (smallInt 8211 (by decide)),
    intField "QueryPort" (aliasChoices "QUERY_PORT" "query_port") (smallInt 27015 (by decide)),
    intField "RCONPort" ["RCON_PORT"] (smallInt 25575 (by decide)),
    boolField "RCONEnabled" ["RCON_ENABLED"] true,
    intField "RESTAPIPort" ["REST_PORT"] (smallInt 8212 (by decide)),
    boolField "RESTAPIEnabled" ["REST_ENABLED"] true,
    strField "CrossplayPlatforms" ["CROSSPLAY_PLATFORMS"] "(Steam,Xbox,PS5,Mac)",
    intField "web_port" ["WEB_PORT"] (smallInt 8080 (by decide)),
    pathField "ini_path" ["INI_PATH"] HostDefaults.iniPath,
    strField "service_name" ["SERVICE_NAME"] "palworld.service",
    pathField "backup_dir" ["BACKUP_DIR"] HostDefaults.backupDir,
    pathField "log_dir" ["LOG_DIR"] HostDefaults.logDir,
    pathField "database_path" (aliasChoices "DATABASE_PATH" "database_path") HostDefaults.dbPath,
    pathField "metrics_db_path" (aliasChoices "METRICS_DB_PATH" "metrics_db_path") HostDefaults.metricsDbPath,
    intField "metrics_retention_days" (aliasChoices "METRICS_RETENTION_DAYS" "metrics_retention_days")
      (smallInt 30 (by decide)),
    intField "metrics_sample_interval_seconds"
      (aliasChoices "METRICS_SAMPLE_INTERVAL_SECONDS" "metrics_sample_interval_seconds") (smallInt 10 (by decide)),
    intField "metrics_flush_interval_seconds"
      (aliasChoices "METRICS_FLUSH_INTERVAL_SECONDS" "metrics_flush_interval_seconds") (smallInt 300 (by decide)),
    strField "duckdns_domain"
      ["PALWORLD_DOMAIN", "PALWORLD_SERVER_DOMAIN", "PALWORLD_DUCKDNS_DOMAIN", "DUCKDNS_DOMAIN", "SERVER_DOMAIN",
        "duckdns_domain"] "yourdomain.duckdns.org",
    strField "duckdns_token" (aliasChoices "DUCKDNS_TOKEN" "duckdns_token") "your_duckdns_token",
    pathField "host_ip" (aliasChoices "HOST_IP" "host_ip") HostDefaults.hostIp,
    optionalField "discord_webhook_url" (aliasChoices "DISCORD_WEBHOOK_URL" "discord_webhook_url"),
    strField "discord_log_level" (aliasChoices "DISCORD_LOG_LEVEL" "discord_log_level") "ERROR",
    strField "discord_critical_ping" (aliasChoices "DISCORD_CRITICAL_PING" "discord_critical_ping")
      "@thestygianarchitect",
    { strField "github_repo_url" (aliasChoices "GITHUB_REPO_URL" "github_repo_url")
        "https://github.com/theStygianArchitect/palworld_server_service" with type := .githubRepoUrl },
    optionalField "admin_credential_export_path"
      (aliasChoices "ADMIN_CREDENTIAL_EXPORT_PATH" "admin_credential_export_path"),
    boolField "updater_enabled" (aliasChoices "UPDATER_ENABLED" "updater_enabled") true,
    { intField "update_check_interval_seconds"
        (aliasChoices "UPDATE_CHECK_INTERVAL_SECONDS" "update_check_interval_seconds")
        (smallInt 600 (by decide)) with type := .intGe 10 },
    strField "update_branch" (aliasChoices "UPDATE_BRANCH" "update_branch") "main",
    strField "deploy_script_path" (aliasChoices "DEPLOY_SCRIPT_PATH" "deploy_script_path")
      "/opt/palworld-web-manager/scripts/deploy.sh",
    boolField "ssl_enabled" (aliasChoices "SSL_ENABLED" "ssl_enabled") false,
    optionalField "ssl_cert_path" (aliasChoices "SSL_CERT_PATH" "ssl_cert_path"),
    optionalField "ssl_key_path" (aliasChoices "SSL_KEY_PATH" "ssl_key_path"),
    optionalField "ssl_cert_dir" (aliasChoices "SSL_CERT_DIR" "ssl_cert_dir"),
    boolField "ssl_auto_renew" (aliasChoices "SSL_AUTO_RENEW" "ssl_auto_renew") false,
    { strField "ssl_cert_mode" (aliasChoices "SSL_CERT_MODE" "ssl_cert_mode") "letsencrypt" with
      type := .literal (["letsencrypt", "self_signed", "custom"].map lit) },
    intField "ssl_port" (aliasChoices "SSL_PORT" "ssl_port") (smallInt 8443 (by decide)),
    boolField "ssl_auto_detect" (aliasChoices "SSL_AUTO_DETECT" "ssl_auto_detect") true,
    optionalField "letsencrypt_email" (aliasChoices "LETSENCRYPT_EMAIL" "letsencrypt_email")]

end Fields

/-! ## The INI source -/

/-- The `alias_map` of `PalWorldIniSettingsSource`. -/
def aliasMap : List (Text × List Text) :=
  [("AdminPassword", ["ADMIN_PASSWORD", "admin_password"]),
    ("ServerPassword", ["SERVER_PASSWORD", "server_password"]),
    ("ServerName", ["SERVER_NAME", "server_name"]),
    ("PublicPort", ["PUBLIC_PORT"]),
    ("QueryPort", ["QUERY_PORT", "query_port"]),
    ("RCONPort", ["RCON_PORT"]),
    ("RCONEnabled", ["RCON_ENABLED", "RCONEnabled", "rcon_enabled"]),
    ("bRCONEnabled", ["RCON_ENABLED", "RCONEnabled", "rcon_enabled"]),
    ("RESTAPIPort", ["REST_PORT", "RESTAPIPORT"]),
    ("RESTAPIEnabled", ["REST_ENABLED", "RESTAPIEnabled", "rest_enabled"]),
    ("bRESTAPIEnabled", ["REST_ENABLED", "RESTAPIEnabled", "rest_enabled"])].map
    fun kv => (lit kv.1, kv.2.map lit)

/-- The names that an INI key is handed on under. -/
def exportedNames [Unicode] (k : Text) : List Text := k :: upper k :: (lookup k aliasMap).getD []

/-- What pydantic makes of a value in its lax mode. `none` is its `ValidationError`. -/
class Pydantic (F : Type) where
  str : PyValue F → Option Text
  int : PyValue F → Option Int
  bool : PyValue F → Option Bool
  str_str (s : Text) : str (.str s) = some s
  int_int (n : PyInt) : int (.int n) = some n.val
  bool_bool (b : Bool) : bool (.bool b) = some b

/-- The environment of the portal. `vars` are constructor arguments, the process environment and
`.env`, under the names that the fields are read by. -/
structure Environment (F : Type) where
  vars : Settings F
  secrets : Settings F
  host : HostDefaults

section Load

variable {F : Type} [Unicode] [PyFloat F] [Pydantic F]

/-- `PalWorldIniSettingsSource.__call__`. -/
def iniSource (ini : Option Text) : Settings F :=
  Dict.ofList ((liveSettings ini).entries.flatMap fun kv => (exportedNames kv.1).map fun n => (n, kv.2))

/-- The merged sources: an earlier one wins. -/
def sourceValue (env : Environment F) (source : Settings F) (n : Text) : Option (PyValue F) :=
  (env.vars.get? n).or ((source.get? n).or (env.secrets.get? n))

def validateGithubRepoUrl (v : Text) : Option Text :=
  let cleaned := strip v
  if (lit "http://").isPrefixOf cleaned ∨ (lit "https://").isPrefixOf cleaned then
    some (cleaned.reverse.dropWhile (· = '/')).reverse
  else none

def FieldType.check (v : PyValue F) : FieldType → Option FieldValue
  | .str => (Pydantic.str v).map .str
  | .optionalStr => if v matches .none then some .none else (Pydantic.str v).map .str
  | .int => (Pydantic.int v).map .int
  | .intGe least => ((Pydantic.int v).filter (least ≤ ·)).map .int
  | .bool => (Pydantic.bool v).map .bool
  | .literal choices =>
    match v with
    | .str s => if s ∈ choices then some (.str s) else none
    | _ => none
  | .githubRepoUrl => ((Pydantic.str v).bind validateGithubRepoUrl).map .str

def AppField.input (f : AppField F) (env : Environment F) (source : Settings F) : PyValue F :=
  (f.lookupNames.findSome? (sourceValue env source)).getD (f.default env.host)

def AppField.load (f : AppField F) (env : Environment F) (source : Settings F) : Option FieldValue :=
  f.type.check (f.input env source)

/-- An instance has a value for each field. -/
abbrev AppSettings (F : Type) := (f : AppField F) → f ∈ appFields → FieldValue

/-- `AppSettings()`. `none` is the `ValidationError` of a field. -/
def loadAppSettings (env : Environment F) (ini : Option Text) : Option (AppSettings F) :=
  if h : ∀ f ∈ appFields, (f.load env (iniSource ini)).isSome then
    some fun f hf => (f.load env (iniSource ini)).get (h f hf)
  else none

/-! ## The defaults -/

def AppField.HasDefault (f : AppField F) : Prop := ∀ host, (f.type.check (f.default host)).isSome = true

section Defaults

variable (name : String) (aliases : List String)

omit [Unicode] [PyFloat F]

theorem strField_hasDefault (s : String) : (strField name aliases s : AppField F).HasDefault := by
  intro host
  show ((Pydantic.str (.str (lit s) : PyValue F)).map FieldValue.str).isSome = true
  rw [Pydantic.str_str]
  rfl

theorem pathField_hasDefault (path : HostDefaults → Text) : (pathField name aliases path : AppField F).HasDefault := by
  intro host
  show ((Pydantic.str (.str (path host) : PyValue F)).map FieldValue.str).isSome = true
  rw [Pydantic.str_str]
  rfl

theorem optionalField_hasDefault : (optionalField name aliases : AppField F).HasDefault := by
  intro host
  rfl

theorem intField_hasDefault (n : PyInt) : (intField name aliases n : AppField F).HasDefault := by
  intro host
  show ((Pydantic.int (.int n : PyValue F)).map FieldValue.int).isSome = true
  rw [Pydantic.int_int]
  rfl

theorem boolField_hasDefault (b : Bool) : (boolField name aliases b : AppField F).HasDefault := by
  intro host
  show ((Pydantic.bool (.bool b : PyValue F)).map FieldValue.bool).isSome = true
  rw [Pydantic.bool_bool]
  rfl

theorem hasDefault_of_url {f : AppField F} {url : Text} (hurl : (validateGithubRepoUrl url).isSome = true)
    (hf : ∀ host, f.default host = .str url) : AppField.HasDefault { f with type := .githubRepoUrl } := by
  intro host
  simp [FieldType.check, hf, Pydantic.str_str, hurl]

theorem hasDefault_of_least {f : AppField F} {n : PyInt} {least : Int} (hle : least ≤ n.val)
    (hf : ∀ host, f.default host = .int n) : AppField.HasDefault { f with type := .intGe least } := by
  intro host
  simp [FieldType.check, hf, Pydantic.int_int, hle]

theorem hasDefault_of_choice {f : AppField F} {s : Text} {choices : List Text} (hs : s ∈ choices)
    (hf : ∀ host, f.default host = .str s) : AppField.HasDefault { f with type := .literal choices } := by
  intro host
  simp [FieldType.check, hf, hs]

theorem appFields_hasDefault : ∀ f ∈ (appFields : List (AppField F)), f.HasDefault := by
  have hurl : (validateGithubRepoUrl
      (lit "https://github.com/theStygianArchitect/palworld_server_service")).isSome = true := by decide +kernel
  have hmode : lit "letsencrypt" ∈ ["letsencrypt", "self_signed", "custom"].map lit := by decide +kernel
  simp only [appFields, List.forall_mem_cons, strField_hasDefault, pathField_hasDefault, optionalField_hasDefault,
    intField_hasDefault, boolField_hasDefault, true_and]
  refine ⟨hasDefault_of_url hurl fun _ => rfl, hasDefault_of_least (n := smallInt 600 (by decide)) (by decide) fun _ => rfl,
    hasDefault_of_choice hmode fun _ => rfl, ?_⟩
  simp

end Defaults

end Load

end Palworld.Config
