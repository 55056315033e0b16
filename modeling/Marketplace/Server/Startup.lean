import Marketplace.Log.Basic
import Marketplace.Net.Host
import Marketplace.Server.Settings
import Marketplace.Server.VariableFile
set_option autoImplicit false

/-!
# Starting the server

The server reads its settings, sets up its log, says in it what it works with, and listens.  A fault
ends it with a report.
-/

namespace Marketplace

/-- Why the server does not start. -/
inductive StartupFault
  | settings (f : SettingsFault)
  | bind (address : SocketAddress) (reason : String)
  deriving DecidableEq, Repr

/-- The report of the fault. -/
def StartupFault.report : StartupFault → String
  | .settings f => s!"Error: {f.message}\n"
  | .bind address reason => s!"Error: failed to bind {address.text}\n\nCaused by:\n    {reason}\n"

/-- A start: what has been logged, and the settings that the server runs with. -/
structure Startup where
  log : Log
  outcome : Except StartupFault Settings

namespace Startup

/-- The target of events of the program itself. -/
def programTarget : String := "bazaar_api"

/-- The target of events of the services. -/
def servicesTarget : String := "bazaar_api::app::services"

/-- What the server says of its secret. -/
def secretEvents (s : Settings) : List LogEvent :=
  if s.usesDevSecret then
    [⟨.warn, programTarget, "JWT_SECRET not set; using insecure dev default"⟩]
  else []

/-- What the server says of its stores: they are in memory in any case. -/
def storeEvent (s : Settings) : LogEvent :=
  match s.databaseUrl with
  | none => ⟨.info, servicesTarget, "using in-memory stores"⟩
  | some _ => ⟨.warn, servicesTarget,
      "DATABASE_URL set but postgres feature not enabled, falling back to in-memory"⟩

/-- What the server says of its mail. -/
def mailEvent (s : Settings) : LogEvent :=
  match s.relay with
  | some _ => ⟨.info, servicesTarget, "using SMTP mailer"⟩
  | none => ⟨.warn, servicesTarget, "SMTP not configured; order notifications are only logged"⟩

/-- What the server says before it listens. -/
def events (s : Settings) : List LogEvent := secretEvents s ++ [storeEvent s, mailEvent s]

/-- Starts the server with variables. -/
def run (vars : Variables) : Startup :=
  match Settings.read fun name => vars.lookup name with
  | .error f => ⟨.empty, .error (.settings f)⟩
  | .ok s =>
    let log := Log.empty.start s.logFormat (vars.lookup "RUST_LOG") Log.usualFilter
    let log := (events s).foldl Log.write log
    match Net.bindFault? s.bind with
    | some reason => ⟨log, .error (.bind s.bind reason)⟩
    | none => ⟨log.write ⟨.info, programTarget, "listening"⟩, .ok s⟩

/-- Stops a server that has been started. -/
def stop (s : Startup) : Log := s.log.write ⟨.info, programTarget, "shutting down"⟩

end Startup

end Marketplace
