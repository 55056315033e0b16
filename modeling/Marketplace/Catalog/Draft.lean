import Marketplace.Catalog.Tables
import Marketplace.PriceList.Basic
import Marketplace.Storage.Fault
set_option autoImplicit false

/-!
# Changing the catalog

An import changes a draft, a copy of the catalog that nobody sees until it is published.  The
numbers of new rows come from counters outside the draft, so that a number given once is not given
again, whatever becomes of the draft.
-/

namespace Marketplace

/-- The last identifiers given to rows of the catalog. -/
structure CatalogCounters where
  shop : Int
  product : Int
  listing : Int
  parameter : Int
  deriving DecidableEq, Repr

/-- Counters before any row. -/
def CatalogCounters.start : CatalogCounters := ⟨0, 0, 0, 0⟩

/-- A catalog that is being changed, with the counters. -/
structure Draft where
  catalog : Catalog
  counters : CatalogCounters
  deriving DecidableEq, Repr

/-- A change of a draft: it fails and changes nothing, or gives an answer and the changed draft. -/
abbrev Edit (α : Type) := Draft → Except StorageFault (α × Draft)

namespace Draft

/-- The row of a new shop. -/
def newShop (d : Draft) (name : String) (owner : UserId) : Shop :=
  ⟨⟨d.counters.shop + 1⟩, name, owner, none, true⟩

/-- Adds a shop; its name and its owner must not have one yet. -/
def createShop (name : String) (owner : UserId) : Edit Shop := fun d =>
  let c := d.catalog
  if c.shopNames.contains name then .error (.unique StorageFault.shopName)
  else if c.shopOwners.contains owner then .error (.unique StorageFault.shopOwner)
  else
    let s := d.newShop name owner
    .ok (s, {
      catalog := { c with
        shopNames := c.shopNames.insert name s.id
        shopOwners := c.shopOwners.insert owner s.id
        shops := c.shops.insert s.id s }
      counters := { d.counters with shop := d.counters.shop + 1 } })

/-- Adds a category, unless there is one of its identifier. -/
def ensureCategory (k : DeclaredCategory) : Edit Unit := fun d =>
  let c := d.catalog
  if c.categories.contains k.id then .ok ((), d)
  else .ok ((), { d with
    catalog := { c with categories := c.categories.insert k.id ⟨k.name, []⟩ } })

/-- Links a category to a shop. -/
def linkCategory (category : CategoryId) (shop : ShopId) : Edit Unit := fun d =>
  let c := d.catalog
  if !c.shops.contains shop then .error (.foreignKey "category_shops_shop_id_fkey")
  else
    match c.categories.get? category with
    | none => .error (.foreignKey "category_shops_category_id_fkey")
    | some row =>
      let row := { row with shops := Id.insertSorted shop row.shops }
      .ok ((), { d with catalog := { c with categories := c.categories.insert category row } })

/-- Deletes the listings of a shop with their parameters; the answer is their number. -/
def deleteListings (shop : ShopId) : Edit Nat := fun d =>
  let c := d.catalog
  let doomed := c.listings.filter fun _ l => l.shop == shop
  .ok (doomed.size, { d with
    catalog := { c with
      listings := c.listings.filter fun _ l => l.shop != shop
      listingParameters := c.listingParameters.filter fun k _ => !doomed.contains k.1 } })

/-- The product of a name in a category, which is added if there is none. -/
def upsertProduct (name : String) (category : CategoryId) : Edit ProductId := fun d =>
  let c := d.catalog
  if !c.categories.contains category then .error (.foreignKey "products_category_id_fkey")
  else
    match c.productKeys.get? (category, name) with
    | some id => .ok (id, d)
    | none =>
      let id : ProductId := ⟨d.counters.product + 1⟩
      .ok (id, {
        catalog := { c with
          products := c.products.insert id ⟨id, name, category⟩
          productKeys := c.productKeys.insert (category, name) id }
        counters := { d.counters with product := d.counters.product + 1 } })

/-- Adds a listing. -/
def insertListing (l : ListingData) : Edit ListingId := fun d =>
  let c := d.catalog
  if !c.products.contains l.product then .error (.foreignKey "listings_product_id_fkey")
  else if !c.shops.contains l.shop then .error (.foreignKey "listings_shop_id_fkey")
  else if l.price < 0 || l.priceRrc < 0 || l.quantity < 0 then
    .error (.check "listings_non_negative")
  else
    let id : ListingId := ⟨d.counters.listing + 1⟩
    .ok (id, {
      catalog := { c with listings := c.listings.insert id l }
      counters := { d.counters with listing := d.counters.listing + 1 } })

/-- The parameter of a name, which is added if there is none. -/
def upsertParameter (name : String) : Edit ParameterId := fun d =>
  let c := d.catalog
  match c.parameterNames.get? name with
  | some id => .ok (id, d)
  | none =>
    let id : ParameterId := ⟨d.counters.parameter + 1⟩
    .ok (id, {
      catalog := { c with
        parameters := c.parameters.insert id ⟨id, name⟩
        parameterNames := c.parameterNames.insert name id }
      counters := { d.counters with parameter := d.counters.parameter + 1 } })

/-- Gives a listing a parameter, which it must not have yet. -/
def insertParameter (listing : ListingId) (parameter : ParameterId) (value : String) :
    Edit Unit := fun d =>
  let c := d.catalog
  if !c.listings.contains listing then .error (.foreignKey "listing_parameters_listing_id_fkey")
  else if !c.parameters.contains parameter then
    .error (.foreignKey "listing_parameters_parameter_id_fkey")
  else if c.listingParameters.contains (listing, parameter) then
    .error (.unique "listing_parameters_pkey")
  else
    .ok ((), { d with
      catalog := { c with
        listingParameters := c.listingParameters.insert (listing, parameter) value } })

end Draft

end Marketplace
