import Marketplace.Text.Blank
set_option autoImplicit false

/-!
# The forms of a log

A log is written for machines, one JSON object per line, or for people.
-/

namespace Marketplace

/-- How a log is written. -/
inductive LogFormat
  | json
  | pretty
  deriving DecidableEq, Repr

namespace LogFormat

/-- The name of the form. -/
def name : LogFormat → String
  | .json => "json"
  | .pretty => "pretty"

/-- Reads the name in any case; all else asks for JSON. -/
def parse (s : String) : LogFormat :=
  if (Text.trim s).map Char.toLower == "pretty" then .pretty else .json

end LogFormat

end Marketplace
