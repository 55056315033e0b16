import Marketplace.Catalog.Filter
import Marketplace.Table
set_option autoImplicit false

/-!
# The catalog

The tables of the catalog, with the indexes by which its rows are found, and what a visitor sees of
them.  Rows refer to each other by identifiers.
-/

namespace Marketplace

/-- A category and the shops that it is linked to, ascending. -/
structure CategoryRow where
  name : String
  shops : List ShopId
  deriving DecidableEq, Repr

/-- The tables of the catalog. -/
structure Catalog where
  shops : Table ShopId Shop
  /-- The shop of each name. -/
  shopNames : Table String ShopId
  /-- The shop of each owner. -/
  shopOwners : Table UserId ShopId
  categories : Table CategoryId CategoryRow
  products : Table ProductId Product
  /-- The product of each category and name. -/
  productKeys : Table (CategoryId × String) ProductId
  listings : Table ListingId ListingData
  parameters : Table ParameterId Parameter
  /-- The parameter of each name. -/
  parameterNames : Table String ParameterId
  /-- The value of each parameter of each listing. -/
  listingParameters : Table (ListingId × ParameterId) String
  deriving DecidableEq, Repr

namespace Catalog

/-- A catalog without rows. -/
def empty : Catalog :=
  ⟨.empty, .empty, .empty, .empty, .empty, .empty, .empty, .empty, .empty, .empty⟩

/-- The shop of a name. -/
def shopNamed? (c : Catalog) (name : String) : Option Shop :=
  (c.shopNames.get? name).bind c.shops.get?

/-- The shop of an owner. -/
def shopOf? (c : Catalog) (owner : UserId) : Option Shop :=
  (c.shopOwners.get? owner).bind c.shops.get?

/-- The first text comes before the second one, or is the same: texts are compared by the numbers
of their characters. -/
def textLe (s t : String) : Bool := !(t < s)

/-- The parameters of a listing, by name. -/
def parametersOf (c : Catalog) (id : ListingId) : List ParameterValue :=
  (c.listingParameters.entries.filterMap fun e =>
    if e.1.1 = id then (c.parameters.get? e.1.2).map fun p => ⟨p.name, e.2⟩ else none).mergeSort
    fun p q => textLe p.name q.name

/-- What a visitor sees of a listing. -/
def view? (c : Catalog) (id : ListingId) (l : ListingData) : Option ListingView :=
  (c.products.get? l.product).bind fun p =>
    (c.categories.get? p.category).bind fun k =>
      (c.shops.get? l.shop).map fun s =>
        ⟨id, l.model, l.externalId, l.quantity, l.price, l.priceRrc, p.id, p.name, p.category,
          k.name, s.ref, c.parametersOf id⟩

/-- The listing of an identifier as a visitor sees it. -/
def listing? (c : Catalog) (id : ListingId) : Option ListingView :=
  (c.listings.get? id).bind (c.view? id)

/-- All listings as a visitor sees them. -/
def views (c : Catalog) : List ListingView :=
  c.listings.entries.filterMap fun e => c.view? e.1 e.2

/-- A page of the listings that a filter accepts. -/
def search (c : Catalog) (f : ListingFilter) (r : PageRequest) : Page ListingView :=
  .cut (c.views.filter f.accepts) r

/-- All categories by identifier. -/
def allCategories (c : Catalog) : List Category :=
  (c.categories.entries.map fun e => ⟨e.1, e.2.name, e.2.shops⟩).mergeSort fun a b => a.id.le b.id

/-- The shops that accept orders, by name and then by identifier. -/
def acceptingShops (c : Catalog) : List Shop :=
  (c.shops.values.filter Shop.acceptingOrders).mergeSort fun a b =>
    a.name < b.name || (a.name == b.name && a.id.le b.id)

end Catalog

end Marketplace
