import Marketplace.Refusal
import Marketplace.Json.Decoder
import Marketplace.Text.Blank
set_option autoImplicit false

/-!
# Identifiers

One type of identifier per kind of thing.  All are signed integers of 64 bits; the kind keeps them
apart and names them in messages.
-/

namespace Marketplace

/-- The kinds of things that have an identifier. -/
inductive IdKind
  | user
  | shop
  | category
  | product
  | listing
  | parameter
  | order
  | orderItem
  | contact
  deriving DecidableEq, Repr

/-- The kinds in order. -/
def IdKind.all : List IdKind :=
  [.user, .shop, .category, .product, .listing, .parameter, .order, .orderItem, .contact]

/-- The name of the kind in messages. -/
def IdKind.label : IdKind → String
  | .user => "UserId"
  | .shop => "ShopId"
  | .category => "CategoryId"
  | .product => "ProductId"
  | .listing => "ListingId"
  | .parameter => "ParameterId"
  | .order => "OrderId"
  | .orderItem => "OrderItemId"
  | .contact => "ContactId"

/-- An identifier of a thing of the kind. -/
structure Id (kind : IdKind) where
  value : Int
  deriving DecidableEq, Repr

/-- An account, of a buyer or of a shop's owner. -/
abbrev UserId := Id .user

/-- A supplier's shop. -/
abbrev ShopId := Id .shop

/-- A category, with the number that price lists give it. -/
abbrev CategoryId := Id .category

/-- A product of the whole catalog. -/
abbrev ProductId := Id .product

/-- A shop's offer of a product. -/
abbrev ListingId := Id .listing

/-- A named attribute of listings. -/
abbrev ParameterId := Id .parameter

/-- An order; a basket is one too. -/
abbrev OrderId := Id .order

/-- A line of an order. -/
abbrev OrderItemId := Id .orderItem

/-- A buyer's delivery contact. -/
abbrev ContactId := Id .contact

namespace Id

variable {kind : IdKind}

/-- The decimal text. -/
def text (i : Id kind) : String := toString i.value

instance : ToString (Id kind) := ⟨text⟩

/-- Smaller identifiers come first. -/
def le (i j : Id kind) : Bool := i.value ≤ j.value

/-- Inserts an identifier into an ascending list that has each one once. -/
def insertSorted (i : Id kind) : List (Id kind) → List (Id kind)
  | [] => [i]
  | j :: js =>
    if i == j then j :: js else if i.value < j.value then i :: j :: js else j :: insertSorted i js

/-- The identifiers in ascending order, each once. -/
def sorted (ids : List (Id kind)) : List (Id kind) := ids.foldr insertSorted []

/-- Reads a decimal text with blanks around it. -/
def parse (kind : IdKind) (s : String) : Except Refusal (Id kind) :=
  match Text.readInteger .signed64 (Text.trim s) with
  | .ok n => .ok ⟨n⟩
  | .error e => .error (.invalidArguments s!"{kind.label}: {e.message}")

/-- The JSON form, a number. -/
def toJson (i : Id kind) : Json.Value := .int i.value

/-- Reads the JSON form. -/
def decoder : Json.Decoder (Id kind) := Json.Decoder.map mk (Json.Decoder.integer .signed64)

end Id

end Marketplace
