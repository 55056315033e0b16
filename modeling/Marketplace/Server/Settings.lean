import Marketplace.Job.Executor
import Marketplace.Log.Format
import Marketplace.Mail.Relay
import Marketplace.Net.Address
import Marketplace.Text.Integer
set_option autoImplicit false

/-!
# Settings of the server

The settings are read from variables.  A value counts without the blanks around it, and a blank one
is missing.  The secret of tokens comes first, then the mail relay, then all others in the order of
`Settings`; the first that is missing or unreadable decides the fault.
-/

namespace Marketplace

/-- Why the settings cannot be read. -/
inductive SettingsFault
  | missing (name : String)
  | invalid (name : String) (reason : String)
  deriving DecidableEq, Repr

/-- The fault in words. -/
def SettingsFault.message : SettingsFault → String
  | .missing name => s!"missing required environment variable: {name}"
  | .invalid name reason => s!"invalid value for {name}: {reason}"

/-- How the server is set up. -/
structure Settings where
  bind : SocketAddress
  secret : String
  databaseUrl : Option String
  databaseConnections : Nat
  relay : Option RelaySettings
  /-- How many jobs run at once. -/
  workers : Nat
  /-- How long the import of a price list may take. -/
  importSeconds : Nat
  /-- How long the executor rests between two looks for jobs. -/
  pollMillis : Nat
  logFormat : LogFormat
  deriving DecidableEq, Repr

namespace Settings

/-- The secret of a development server that has none of its own. -/
def devSecret : String := "dev-secret"

/-- The variables that are read. -/
def variableNames : List String :=
  ["BAZAAR_ENV", "BAZAAR_BIND", "JWT_SECRET", "DATABASE_URL", "DATABASE_MAX_CONNECTIONS",
    "SMTP_HOST",
    "SMTP_PORT", "SMTP_USERNAME", "SMTP_PASSWORD", "MAIL_FROM", "JOB_WORKERS",
    "IMPORT_TIMEOUT_SECS", "JOB_POLL_INTERVAL_MS", "LOG_FORMAT", "RUST_LOG"]

/-- The usual number of connections to the database. -/
def usualConnections : Nat := 10

/-- How long the import of a price list may usually take. -/
def usualImportSeconds : Nat := 300

/-- The settings of a server for local use. -/
def ofSecret (secret : String) : Settings :=
  ⟨.v4 ⟨127, 0, 0, 1⟩ 0, secret, none, usualConnections, none, ExecutorSettings.usual.workers,
    usualImportSeconds, ExecutorSettings.usual.pollMillis, .json⟩

/-- The server has no secret of its own. -/
def usesDevSecret (s : Settings) : Bool := s.secret == devSecret

/-- The JSON form.  It holds the secret and the password too. -/
def toJson (s : Settings) : Json.Value :=
  .object [("bind", .text s.bind.text), ("jwt_secret", .text s.secret),
    ("dev_secret", .bool s.usesDevSecret), ("database_url", .ofOption .text s.databaseUrl),
    ("database_max_connections", .nat s.databaseConnections),
    ("smtp", .ofOption RelaySettings.toJson s.relay), ("job_workers", .nat s.workers),
    ("import_timeout_secs", .nat s.importSeconds), ("job_poll_interval_ms", .nat s.pollMillis),
    ("log_format", .text s.logFormat.name)]

/-- The value of a variable. -/
def value (lookup : String → Option String) (name : String) : Option String :=
  (lookup name).bind Text.nonBlank?

/-- Reads a natural number below `2 ^ bits`, or takes the usual one. -/
def natural (lookup : String → Option String) (name : String) (bits usual : Nat) :
    Except SettingsFault Nat :=
  match value lookup name with
  | none => .ok usual
  | some raw =>
    match Text.readInteger (.unsigned bits) raw with
    | .ok n => .ok n.toNat
    | .error f => .error (.invalid name f.message)

/-- Reads the address to listen on. -/
def bindAddress (lookup : String → Option String) : Except SettingsFault SocketAddress :=
  match value lookup "BAZAAR_BIND" with
  | none => .ok (.v4 ⟨0, 0, 0, 0⟩ 8080)
  | some raw =>
    match SocketAddress.parse? raw with
    | some a => .ok a
    | none => .error (.invalid "BAZAAR_BIND" "invalid socket address syntax")

/-- The variables ask for a development server. -/
def isDevelopment (lookup : String → Option String) : Bool :=
  (value lookup "BAZAAR_ENV").all fun e => e.map Char.toLower == "dev"

/-- Reads the secret; only a development server may lack one. -/
def readSecret (lookup : String → Option String) : Except SettingsFault String :=
  match value lookup "JWT_SECRET" with
  | some s => .ok s
  | none => if isDevelopment lookup then .ok devSecret else .error (.missing "JWT_SECRET")

/-- Reads the relay; a host needs a sender. -/
def readRelay (lookup : String → Option String) : Except SettingsFault (Option RelaySettings) :=
  match value lookup "SMTP_HOST", value lookup "MAIL_FROM" with
  | some host, some sender => do
    let port ← natural lookup "SMTP_PORT" 16 587
    return some ⟨host, port, value lookup "SMTP_USERNAME", value lookup "SMTP_PASSWORD", sender⟩
  | some _, none => .error (.missing "MAIL_FROM")
  | none, _ => .ok none

/-- Reads the settings. -/
def read (lookup : String → Option String) : Except SettingsFault Settings := do
  let secret ← readSecret lookup
  let relay ← readRelay lookup
  let bind ← bindAddress lookup
  let connections ← natural lookup "DATABASE_MAX_CONNECTIONS" 32 usualConnections
  let workers ← natural lookup "JOB_WORKERS" 64 ExecutorSettings.usual.workers
  let importSeconds ← natural lookup "IMPORT_TIMEOUT_SECS" 64 usualImportSeconds
  let pollMillis ← natural lookup "JOB_POLL_INTERVAL_MS" 64 ExecutorSettings.usual.pollMillis
  return ⟨bind, secret, value lookup "DATABASE_URL", connections, relay, max workers 1,
    importSeconds, pollMillis, ((value lookup "LOG_FORMAT").map LogFormat.parse).getD .json⟩

end Settings

end Marketplace
