import Marketplace.Id
import Marketplace.FieldFault
set_option autoImplicit false

/-!
# Delivery contacts

A buyer's addresses.  `Address` holds the text fields; a draft gives them for a new contact and a
patch changes some of them.  Both are trimmed and checked against the same limits, so every stored
address is within them.
-/

namespace Marketplace

/-- The text fields of a contact, each in a form `α`: a text, or a text that may be missing. -/
structure AddressOf (α : Type) where
  city : α
  street : α
  house : α
  annex : α
  building : α
  apartment : α
  phone : α
  deriving DecidableEq, Repr

/-- The text fields of a stored contact. -/
abbrev Address := AddressOf String

/-- Text fields as they come in: any of them may be missing. -/
abbrev AddressInput := AddressOf (Option String)

/-- The most characters of each field. -/
def addressLimits : AddressOf Nat :=
  ⟨50, 100, 15, 15, 15, 15, 20⟩

namespace AddressOf

variable {α β γ : Type}

/-- Applies a function field by field. -/
def map (f : α → β) (a : AddressOf α) : AddressOf β :=
  ⟨f a.city, f a.street, f a.house, f a.annex, f a.building, f a.apartment, f a.phone⟩

/-- Combines two addresses field by field. -/
def zip (f : α → β → γ) (a : AddressOf α) (b : AddressOf β) : AddressOf γ :=
  ⟨f a.city b.city, f a.street b.street, f a.house b.house, f a.annex b.annex,
    f a.building b.building, f a.apartment b.apartment, f a.phone b.phone⟩

/-- The fields in order with their names. -/
def named (a : AddressOf α) : List (String × α) :=
  [("city", a.city), ("street", a.street), ("house", a.house), ("structure", a.annex),
    ("building", a.building), ("apartment", a.apartment), ("phone", a.phone)]

/-- The fields that a contact must have, with names and limits, in the order of checking. -/
def mandatory (a : AddressOf α) : List (String × α × Nat) :=
  [("city", a.city, addressLimits.city), ("street", a.street, addressLimits.street),
    ("house", a.house, addressLimits.house), ("phone", a.phone, addressLimits.phone)]

/-- The fields that a contact may leave empty, with names and limits, in the order of checking. -/
def voluntary (a : AddressOf α) : List (String × α × Nat) :=
  [("structure", a.annex, addressLimits.annex),
    ("building", a.building, addressLimits.building),
    ("apartment", a.apartment, addressLimits.apartment)]

end AddressOf

namespace AddressInput

/-- The input without any field. -/
def blank : AddressInput := ⟨none, none, none, none, none, none, none⟩

/-- No field is given. -/
def isBlank (a : AddressInput) : Bool := a.named.all fun f => f.2.isNone

/-- The faults of the fields that may be left empty. -/
def voluntaryFaults (a : AddressInput) : List FieldFault :=
  a.voluntary.flatMap fun (field, value, max) =>
    match value with
    | some v => FieldFault.limit field (Text.trim v) max
    | none => []

/-- The faults of a draft, where every mandatory field must be given. -/
def draftFaults (a : AddressInput) : List FieldFault :=
  (a.mandatory.flatMap fun (field, value, max) => FieldFault.require field value max) ++
    a.voluntaryFaults

/-- The faults of a patch, where a mandatory field may be missing but not emptied. -/
def patchFaults (a : AddressInput) : List FieldFault :=
  (a.mandatory.flatMap fun (field, value, max) =>
    if value.isSome then FieldFault.require field value max else []) ++ a.voluntaryFaults

/-- The address of a draft: trimmed, and empty where nothing is given. -/
def complete (a : AddressInput) : Address :=
  a.map fun v => (v.map Text.trim).getD ""

/-- The address of a draft without faults. -/
def checkDraft (a : AddressInput) : Except Refusal Address :=
  (FieldFault.check a.draftFaults).map fun _ => a.complete

/-- A patch without faults. -/
def checkPatch (a : AddressInput) : Except Refusal Unit := FieldFault.check a.patchFaults

/-- The address in which the given fields are replaced. -/
def patch (a : AddressInput) (old : Address) : Address :=
  a.zip (fun new old => (new.map Text.trim).getD old) old

/-- The members of the JSON form. -/
def fields : List (Json.Decoder.Field AddressInput) := [
  .nullable "city" .text fun v a => { a with city := v },
  .nullable "street" .text fun v a => { a with street := v },
  .nullable "house" .text fun v a => { a with house := v },
  .nullable "structure" .text fun v a => { a with annex := v },
  .nullable "building" .text fun v a => { a with building := v },
  .nullable "apartment" .text fun v a => { a with apartment := v },
  .nullable "phone" .text fun v a => { a with phone := v }]

/-- Reads the JSON form. -/
def decoder : Json.Decoder AddressInput := .record blank fields

end AddressInput

/-- A contact of a buyer. -/
structure Contact where
  id : ContactId
  user : UserId
  address : Address
  deriving DecidableEq, Repr

namespace Contact

/-- The JSON form. -/
def toJson (c : Contact) : Json.Value :=
  .object ([("id", c.id.toJson), ("user_id", c.user.toJson)] ++
    c.address.named.map fun f => (f.1, .text f.2))

/-- Reads the JSON form. -/
def decoder : Json.Decoder Contact :=
  .record ⟨⟨0⟩, ⟨0⟩, ⟨"", "", "", "", "", "", ""⟩⟩ [
    .required "id" Id.decoder fun v c => { c with id := v },
    .required "user_id" Id.decoder fun v c => { c with user := v },
    .required "city" .text fun v c => { c with address.city := v },
    .required "street" .text fun v c => { c with address.street := v },
    .required "house" .text fun v c => { c with address.house := v },
    .required "structure" .text fun v c => { c with address.annex := v },
    .required "building" .text fun v c => { c with address.building := v },
    .required "apartment" .text fun v c => { c with address.apartment := v },
    .required "phone" .text fun v c => { c with address.phone := v }]

end Contact

end Marketplace
