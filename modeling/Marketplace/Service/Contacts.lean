import Marketplace.Service.Basic
set_option autoImplicit false

/-!
# The contacts of a user
-/

namespace Marketplace.Contacts

/-- The user's contacts. -/
def list (user : UserId) : Service (List Contact) := .contacts (.all user)

/-- Adds a contact. -/
def create (user : UserId) (draft : AddressInput) : Service Contact := do
  let address ← Service.ofExcept draft.checkDraft
  Service.contacts (.insert user address)

/-- Changes some fields of one of the user's contacts. -/
def update (user : UserId) (id : ContactId) (patch : AddressInput) : Service Contact := do
  if patch.isBlank then Service.refuse (.invalidArguments "no fields to update")
  Service.ofExcept patch.checkPatch
  let found ← Service.contacts (.update user id patch)
  Service.orRefuse (.notFound s!"contact {id}") found

/-- Deletes the user's contacts among those named; the answer is their number. -/
def delete (user : UserId) (ids : List ContactId) : Service Nat := do
  if ids.isEmpty then Service.refuse (.invalidArguments "items: is required")
  Service.contacts (.delete user ids)

end Marketplace.Contacts
