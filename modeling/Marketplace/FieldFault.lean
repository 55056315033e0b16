import Marketplace.Refusal
import Marketplace.Text.Blank
set_option autoImplicit false

/-!
# Faults of fields

A form is checked field by field, and all that is wrong with it is reported at once: the refusal
joins the faults in the order in which they were found.
-/

namespace Marketplace

/-- What is wrong with a field. -/
structure FieldFault where
  field : String
  reason : String
  deriving DecidableEq, Repr

namespace FieldFault

/-- The field must be there. -/
def missing (field : String) : FieldFault := ⟨field, "is required"⟩

/-- The field is longer than allowed. -/
def tooLong (field : String) (max : Nat) : FieldFault :=
  ⟨field, s!"must be at most {max} characters"⟩

/-- The faults of a text that may have so many characters. -/
def limit (field value : String) (max : Nat) : List FieldFault :=
  if max < value.length then [tooLong field max] else []

/-- The faults of a text that must be there: trimmed it is not empty and not too long. -/
def require (field : String) (value : Option String) (max : Nat) : List FieldFault :=
  match value.bind Text.nonBlank? with
  | some v => limit field v max
  | none => [missing field]

/-- The refusal that reports the faults. -/
def refusal (faults : List FieldFault) : Refusal :=
  .invalidArguments ("; ".intercalate (faults.map fun f => s!"{f.field}: {f.reason}"))

/-- No faults, or the refusal that reports them. -/
def check (faults : List FieldFault) : Except Refusal Unit :=
  if faults.isEmpty then .ok () else .error (refusal faults)

/-- The JSON form. -/
def toJson (f : FieldFault) : Json.Value :=
  .object [("field", .text f.field), ("reason", .text f.reason)]

end FieldFault

end Marketplace
