import Marketplace.Id
import Marketplace.Refusal
import Marketplace.Text.Blank
import Marketplace.PriceList.Parameters
set_option autoImplicit false

/-!
# Price lists

What a shop offers: its name, the categories it declares, and its goods.  A price list that has
been read may still be unsound; `PriceList.check` names the first thing that is wrong with it.
-/

namespace Marketplace

open Json (Value)

/-- A category that a price list declares. -/
structure DeclaredCategory where
  id : CategoryId
  name : String
  deriving DecidableEq, Repr

/-- A good of a price list, with the supplier's own number. -/
structure Good where
  externalId : Int
  category : CategoryId
  name : String
  model : String
  price : Int
  priceRrc : Int
  quantity : Int
  parameters : List ParameterEntry
  deriving DecidableEq, Repr

/-- A price list. -/
structure PriceList where
  shop : String
  categories : List DeclaredCategory
  goods : List Good
  deriving DecidableEq, Repr

/-- Why a text is no price list. -/
inductive PriceListFault
  | malformed (reason : String)
  | invalid (reason : String)
  deriving DecidableEq, Repr

namespace PriceListFault

/-- The fault in words. -/
def message : PriceListFault → String
  | .malformed reason => "malformed price list: " ++ reason
  | .invalid reason => "invalid price list: " ++ reason

/-- The refusal that comes of the fault. -/
def refusal : PriceListFault → Refusal
  | .malformed reason => .unreadable reason
  | .invalid reason => .invalidArguments reason

end PriceListFault

/-- The category must have a name. -/
def DeclaredCategory.check (c : DeclaredCategory) : Except String Unit :=
  if Text.isBlankText c.name then .error s!"category {c.id} has an empty name" else .ok ()

namespace Good

/-- The numbers that must not be negative, by name. -/
def amounts (g : Good) : List (String × Int) :=
  [("price", g.price), ("price_rrc", g.priceRrc), ("quantity", g.quantity)]

/-- The good must have a name and no negative amount; the number is its place in the list. -/
def check (g : Good) (place : Nat) : Except String Unit :=
  if Text.isBlankText g.name then .error s!"goods[{place}]: name is empty"
  else
    match g.amounts.find? fun a => a.2 < 0 with
    | some (field, n) => .error s!"goods[{place}]: {field} must not be negative (got {n})"
    | none => .ok ()

/-- The JSON form. -/
def toJson (g : Good) : Value :=
  .object [("id", .int g.externalId), ("category", g.category.toJson), ("name", .text g.name),
    ("model", .text g.model), ("price", .int g.price), ("price_rrc", .int g.priceRrc),
    ("quantity", .int g.quantity),
    ("parameters", .array (g.parameters.map fun p => .array [.text p.1, .text p.2]))]

end Good

namespace PriceList

/-- The first thing that is wrong: the shop's name, a category, or a good. -/
def check (l : PriceList) : Except PriceListFault Unit :=
  if Text.isBlankText l.shop then .error (.invalid "shop name is empty")
  else
    ((l.categories.forM DeclaredCategory.check).bind fun _ =>
      l.goods.zipIdx.forM fun g => g.1.check g.2).mapError .invalid

/-- The categories of goods that the list does not declare, ascending. -/
def undeclared (l : PriceList) : List CategoryId :=
  Id.sorted ((l.goods.map Good.category).filter fun c => !l.categories.any fun d => d.id == c)

/-- The JSON form. -/
def toJson (l : PriceList) : Value :=
  .object [("shop", .text l.shop),
    ("categories", .array (l.categories.map fun c =>
      .object [("id", c.id.toJson), ("name", .text c.name)])),
    ("goods", .array (l.goods.map Good.toJson))]

end PriceList

end Marketplace
