import Marketplace.Id
set_option autoImplicit false

/-!
# The catalog's vocabulary

Shops, categories, products, the listings by which a shop offers a product, and the parameters of
listings.  A `ListingView` is a listing as a visitor sees it.
-/

namespace Marketplace

open Json (Value Decoder)

/-- A supplier's shop. -/
structure Shop where
  id : ShopId
  name : String
  owner : UserId
  url : Option String
  acceptingOrders : Bool
  deriving DecidableEq, Repr

/-- The JSON form. -/
def Shop.toJson (s : Shop) : Value :=
  .object [("id", s.id.toJson), ("name", .text s.name), ("owner", s.owner.toJson),
    ("url", .ofOption .text s.url), ("accepting_orders", .bool s.acceptingOrders)]

/-- A category with the shops that have declared or used it. -/
structure Category where
  id : CategoryId
  name : String
  shops : List ShopId
  deriving DecidableEq, Repr

/-- The JSON form. -/
def Category.toJson (c : Category) : Value :=
  .object [("id", c.id.toJson), ("name", .text c.name),
    ("shops", .array (c.shops.map Id.toJson))]

/-- A product, which several shops may offer. -/
structure Product where
  id : ProductId
  name : String
  category : CategoryId
  deriving DecidableEq, Repr

/-- A shop's offer of a product, without its identifier. -/
structure ListingData where
  product : ProductId
  shop : ShopId
  model : String
  externalId : Int
  quantity : Int
  price : Int
  priceRrc : Int
  deriving DecidableEq, Repr

/-- A named attribute of listings. -/
structure Parameter where
  id : ParameterId
  name : String
  deriving DecidableEq, Repr

/-- An attribute of one listing with its value. -/
structure ParameterValue where
  name : String
  value : String
  deriving DecidableEq, Repr

/-- The JSON form. -/
def ParameterValue.toJson (p : ParameterValue) : Value :=
  .object [("name", .text p.name), ("value", .text p.value)]

/-- Reads the JSON form. -/
def ParameterValue.decoder : Decoder ParameterValue :=
  .record ⟨"", ""⟩ [
    .required "name" .text fun v p => { p with name := v },
    .required "value" .text fun v p => { p with value := v }]

/-- The shop of a listing as a visitor sees it. -/
structure ShopRef where
  id : ShopId
  name : String
  acceptingOrders : Bool
  deriving DecidableEq, Repr

/-- The JSON form. -/
def ShopRef.toJson (s : ShopRef) : Value :=
  .object [("id", s.id.toJson), ("name", .text s.name),
    ("accepting_orders", .bool s.acceptingOrders)]

/-- Reads the JSON form. -/
def ShopRef.decoder : Decoder ShopRef :=
  .record ⟨⟨0⟩, "", true⟩ [
    .required "id" Id.decoder fun v s => { s with id := v },
    .required "name" .text fun v s => { s with name := v },
    .required "accepting_orders" .bool fun v s => { s with acceptingOrders := v }]

/-- A shop without its owner's details. -/
def Shop.ref (s : Shop) : ShopRef := ⟨s.id, s.name, s.acceptingOrders⟩

/-- A listing as a visitor sees it. -/
structure ListingView where
  id : ListingId
  model : String
  externalId : Int
  quantity : Int
  price : Int
  priceRrc : Int
  product : ProductId
  productName : String
  category : CategoryId
  categoryName : String
  shop : ShopRef
  parameters : List ParameterValue
  deriving DecidableEq, Repr

/-- The JSON form. -/
def ListingView.toJson (l : ListingView) : Value :=
  .object [("id", l.id.toJson), ("model", .text l.model), ("external_id", .int l.externalId),
    ("quantity", .int l.quantity), ("price", .int l.price), ("price_rrc", .int l.priceRrc),
    ("product_id", l.product.toJson), ("product_name", .text l.productName),
    ("category_id", l.category.toJson), ("category_name", .text l.categoryName),
    ("shop", l.shop.toJson), ("parameters", .array (l.parameters.map ParameterValue.toJson))]

/-- Reads the JSON form. -/
def ListingView.decoder : Decoder ListingView :=
  .record ⟨⟨0⟩, "", 0, 0, 0, 0, ⟨0⟩, "", ⟨0⟩, "", ⟨⟨0⟩, "", true⟩, []⟩ [
    .required "id" Id.decoder fun v l => { l with id := v },
    .required "model" .text fun v l => { l with model := v },
    .required "external_id" (.integer .signed64) fun v l => { l with externalId := v },
    .required "quantity" (.integer .signed64) fun v l => { l with quantity := v },
    .required "price" (.integer .signed64) fun v l => { l with price := v },
    .required "price_rrc" (.integer .signed64) fun v l => { l with priceRrc := v },
    .required "product_id" Id.decoder fun v l => { l with product := v },
    .required "product_name" .text fun v l => { l with productName := v },
    .required "category_id" Id.decoder fun v l => { l with category := v },
    .required "category_name" .text fun v l => { l with categoryName := v },
    .required "shop" ShopRef.decoder fun v l => { l with shop := v },
    .required "parameters" (.list ParameterValue.decoder) fun v l => { l with parameters := v }]

/-- What an import has done. -/
structure ImportSummary where
  shop : ShopId
  shopCreated : Bool
  categories : Nat
  listings : Nat
  parameters : Nat
  deriving DecidableEq, Repr

/-- The JSON form. -/
def ImportSummary.toJson (s : ImportSummary) : Value :=
  .object [("shop_id", s.shop.toJson), ("shop_created", .bool s.shopCreated),
    ("categories", .nat s.categories), ("listings", .nat s.listings),
    ("parameters", .nat s.parameters)]

end Marketplace
