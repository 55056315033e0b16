import Marketplace.Json.Value
import Marketplace.Log.Filter
import Marketplace.Log.Format
set_option autoImplicit false

/-!
# Logs

A log is set up once with a form and a filter.  Events before that are lost, and so are events that
the filter does not let through.
-/

namespace Marketplace

/-- A line of a log. -/
structure LogLine where
  format : LogFormat
  event : LogEvent
  deriving DecidableEq, Repr

namespace LogLine

/-- The JSON form. -/
def toJson (l : LogLine) : Json.Value :=
  .object [("level", .text l.event.level.name),
    ("fields", .object [("message", .text l.event.message)])]

/-- The line as it is written. -/
def text (l : LogLine) : String :=
  match l.format with
  | .json => l.toJson.render
  | .pretty => s!"{l.event.level.name} {l.event.message}"

end LogLine

/-- How a log is set up. -/
structure LogSetup where
  format : LogFormat
  filter : LogFilter
  deriving DecidableEq, Repr

/-- A log with its lines in order. -/
structure Log where
  setup : Option LogSetup
  lines : List LogLine
  deriving DecidableEq, Repr

namespace Log

/-- A log that has not been set up. -/
def empty : Log := ⟨none, []⟩

/-- The filter of a log that asks for no other. -/
def usualFilter : String := "info"

/-- Sets the log up, unless that has been done.  Directives from outside go before those of the
program. -/
def start (l : Log) (format : LogFormat) (outside : Option String) (own : String) : Log :=
  match l.setup with
  | some _ => l
  | none => { l with setup := some ⟨format, .choose outside own⟩ }

/-- Logs an event. -/
def write (l : Log) (e : LogEvent) : Log :=
  match l.setup with
  | some s => if s.filter.accepts e then { l with lines := l.lines ++ [⟨s.format, e⟩] } else l
  | none => l

end Log

end Marketplace
