import Marketplace.Text.Blank
import Marketplace.Yaml.Value
set_option autoImplicit false

/-!
# Parameters of goods

A price list gives the parameters of a good as a mapping from names to values.  Both are scalars of
any kind and are kept as texts.  A name must not be blank and must not stand twice.
-/

namespace Marketplace

/-- A name and a value. -/
abbrev ParameterEntry := String × String

namespace ParameterEntry

/-- The text of a scalar; nothing is the empty text. -/
def scalarText? : Yaml.Value → Option String
  | .text s => some s
  | .int n => some (toString n)
  | .float x => some (Yaml.floatText x)
  | .bool b => some (toString b)
  | .null => some ""
  | .sequence _ | .mapping _ | .tagged _ _ => none

/-- What may be wrong with an entry. -/
inductive Objection
  | unnamed
  | noScalar (name : String)
  | duplicate (name : String)
  deriving DecidableEq, Repr

/-- The objection in words. -/
def Objection.message : Objection → String
  | .unnamed => "parameter name must be a non-empty scalar"
  | .noScalar name => s!"parameter '{name}' must have a scalar value"
  | .duplicate name => s!"duplicate parameter '{name}'"

/-- The entry of a key and a value, whose name must be none of those before it. -/
def make (before : List ParameterEntry) (key value : Yaml.Value) :
    Except Objection ParameterEntry :=
  match (scalarText? key).filter fun name => !Text.isBlankText name with
  | none => .error .unnamed
  | some name =>
    match scalarText? value with
    | none => .error (.noScalar name)
    | some text =>
      if before.any fun p => p.1 == name then .error (.duplicate name) else .ok (name, text)

/-- Adds the entries of a mapping in order to those before them. -/
def extend (before : List ParameterEntry) :
    List (Yaml.Value × Yaml.Value) → Except Objection (List ParameterEntry)
  | [] => .ok before
  | (key, value) :: rest =>
    match make before key value with
    | .error e => .error e
    | .ok p => extend (before ++ [p]) rest

/-- The parameters of a mapping. -/
def ofEntries (entries : List (Yaml.Value × Yaml.Value)) :
    Except Objection (List ParameterEntry) :=
  extend [] entries

end ParameterEntry

end Marketplace
