import Marketplace.Id
set_option autoImplicit false

/-!
# Accounts

Who uses the marketplace: buyers and owners of shops, and the one policy check there is.
-/

namespace Marketplace

/-- What an account may do. -/
inductive AccountType
  | buyer
  | shop
  deriving DecidableEq, Repr

namespace AccountType

/-- The name in texts and in JSON. -/
def name : AccountType → String
  | .buyer => "buyer"
  | .shop => "shop"

/-- Reads the name in any case of ASCII, with blanks around it. -/
def parse (s : String) : Except Refusal AccountType :=
  let t := String.ofList ((Text.trimChars s.toList).map Char.toLower)
  if t == "buyer" then .ok .buyer
  else if t == "shop" then .ok .shop
  else .error (.invalidArguments s!"unknown account type '{t}'")

/-- The JSON form. -/
def toJson (t : AccountType) : Json.Value := .text t.name

/-- Reads the JSON form. -/
def decoder : Json.Decoder AccountType :=
  .oneOf [("buyer", .plain .buyer), ("shop", .plain .shop)]

end AccountType

/-- An account. -/
structure Account where
  id : UserId
  email : String
  type : AccountType
  deriving DecidableEq, Repr

namespace Account

/-- The JSON form. -/
def toJson (a : Account) : Json.Value :=
  .object [("id", a.id.toJson), ("email", .text a.email), ("account_type", a.type.toJson)]

/-- The account must be of the wanted type. -/
def require (a : Account) (wanted : AccountType) : Except Refusal Unit :=
  if a.type == wanted then .ok ()
  else .error (.permissionDenied
    s!"operation requires a {wanted.name} account (caller is {a.type.name})")

/-- Reads the JSON form. -/
def decoder : Json.Decoder Account :=
  .record ⟨⟨0⟩, "", .buyer⟩ [
    .required "id" Id.decoder fun v a => { a with id := v },
    .required "email" .text fun v a => { a with email := v },
    .required "account_type" AccountType.decoder fun v a => { a with type := v }]

/-- The account must be of a shop's owner. -/
def requireShop (a : Account) : Except Refusal Unit := a.require .shop

end Account

end Marketplace
