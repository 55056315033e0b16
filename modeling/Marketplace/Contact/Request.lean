import Marketplace.Contact
set_option autoImplicit false

/-!
# Requests about contacts

A change names the contact and gives the fields to replace in one object.
-/

namespace Marketplace

open Json (Value Decoder)

/-- A request to change a contact. -/
structure ContactChange where
  id : Option Value
  patch : AddressInput

namespace ContactChange

/-- Reads the request. -/
def decoder : Decoder ContactChange :=
  .embedding (none : Option Value) [.nullable "id" .value fun v _ => v]
    AddressInput.decoder fun id patch => ⟨id, patch⟩

/-- A positive integer, or a text that denotes one. -/
def idValue? : Value → Option Int
  | .number n => n.toSigned?
  | .text s => (Text.readInteger .signed64 (Text.trim s)).toOption
  | _ => none

/-- The contact to change. -/
def contactId (c : ContactChange) : Except Refusal ContactId :=
  match c.id with
  | none | some .null => .error (.invalidArguments "id: is required")
  | some v =>
    match (idValue? v).filter (0 < ·) with
    | some n => .ok ⟨n⟩
    | none => .error (.invalidArguments "id: must be a positive integer id")

end ContactChange

end Marketplace
