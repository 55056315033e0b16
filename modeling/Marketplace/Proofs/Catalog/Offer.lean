import Mathlib.Data.List.Basic
import Marketplace.PriceList.Basic
import Marketplace.Proofs.Catalog.Coherent
set_option autoImplicit false

/-!
# What a listing offers

An `Offer` is what a good of a price list and a listing of the catalog have in common.  Offers
depend on a listing's row, its product and its parameters; this module says which updates of a draft
leave them alone.
-/

namespace Marketplace

/-- A good as it is offered to visitors, with its parameters by name. -/
structure Offer where
  productName : String
  category : CategoryId
  model : String
  externalId : Int
  quantity : Int
  price : Int
  priceRrc : Int
  parameters : List ParameterValue
  deriving DecidableEq, Repr

/-- What a visitor sees of the offer. -/
def ListingView.offer (v : ListingView) : Offer :=
  ⟨v.productName, v.category, v.model, v.externalId, v.quantity, v.price, v.priceRrc, v.parameters⟩

/-- The parameters of a good, in its order. -/
def Good.values (g : Good) : List ParameterValue := g.parameters.map fun p => ⟨p.1, p.2⟩

/-- What a price list asks to offer. -/
def Good.offer (g : Good) : Offer :=
  ⟨Text.trim g.name, g.category, g.model, g.externalId, g.quantity, g.price, g.priceRrc,
    g.values.mergeSort fun p q => Catalog.textLe p.name q.name⟩

namespace Catalog

/-- The parameters of a listing in the order in which it was given them. -/
def valuesOf (c : Catalog) (id : ListingId) : List ParameterValue :=
  c.listingParameters.entries.filterMap fun e =>
    if e.1.1 = id then (c.parameters.get? e.1.2).map fun p => ⟨p.name, e.2⟩ else none

theorem parametersOf_eq (c : Catalog) (id : ListingId) :
    c.parametersOf id = (c.valuesOf id).mergeSort fun p q => textLe p.name q.name := rfl

/-- What a listing offers, if its product is there. -/
def offer? (c : Catalog) (id : ListingId) (l : ListingData) : Option Offer :=
  (c.products.get? l.product).map fun p =>
    ⟨p.name, p.category, l.model, l.externalId, l.quantity, l.price, l.priceRrc, c.parametersOf id⟩

theorem offer_of_view {c : Catalog} {id : ListingId} {l : ListingData} {v : ListingView}
    (hv : c.view? id l = some v) : c.offer? id l = some v.offer := by
  simp only [view?, Option.bind_eq_some_iff, Option.map_eq_some_iff] at hv
  obtain ⟨p, hp, k, -, s, -, rfl⟩ := hv
  simp only [offer?, hp, Option.map_some, ListingView.offer]

/-- An offer stays what it is as long as its product and its parameters do. -/
theorem offer?_eq {c c' : Catalog} (hproducts : c.products.Keeps c'.products) {id : ListingId}
    {l : ListingData} (hproduct : c.products.contains l.product = true)
    (hvalues : c'.valuesOf id = c.valuesOf id) : c'.offer? id l = c.offer? id l := by
  obtain ⟨p, hp⟩ := Table.contains_iff.mp hproduct
  simp only [offer?, hp, hproducts _ p hp, parametersOf_eq, hvalues]

/-- Parameters that have nothing but each other to lose keep the values of every listing. -/
theorem valuesOf_congr {c c' : Catalog} {id : ListingId}
    (hentries : c'.listingParameters.entries = c.listingParameters.entries)
    (hparameters : ∀ k v, c.listingParameters.get? k = some v →
      c'.parameters.get? k.2 = c.parameters.get? k.2) : c'.valuesOf id = c.valuesOf id := by
  simp only [valuesOf, hentries]
  refine List.filterMap_congr fun e he => ?_
  rw [hparameters e.1 e.2 (Table.mem_entries_iff.mp he)]

/-- A value that a listing has of a parameter is among its values. -/
theorem mem_valuesOf {c : Catalog} {id : ListingId} {parameter : ParameterId} {value : String}
    {p : Parameter} (hvalue : c.listingParameters.get? (id, parameter) = some value)
    (hp : c.parameters.get? parameter = some p) : ⟨p.name, value⟩ ∈ c.valuesOf id := by
  refine List.mem_filterMap.mpr ⟨_, Table.mem_entries_iff.mpr hvalue, ?_⟩
  rw [if_pos rfl, hp]
  rfl

/-- A listing that is not there has no parameters. -/
theorem Coherent.valuesOf_eq_nil {c : Catalog} {n : CatalogCounters} (h : c.Coherent n)
    {id : ListingId} (hid : c.listings.get? id = none) : c.valuesOf id = [] := by
  refine List.filterMap_eq_nil_iff.mpr fun e he => ?_
  obtain ⟨hlisting, -⟩ := h.listingParameters e.1 e.2 (Table.mem_entries_iff.mp he)
  split
  · rename_i hkey
    rw [hkey, Table.contains_eq_false_iff.mpr hid] at hlisting
    cases hlisting
  · rfl

end Catalog

namespace Draft

variable {d : Draft}

/-- A new parameter is nobody's yet. -/
theorem valuesOf_addParameter (h : d.Coherent) (name : String) (id : ListingId) :
    (d.addParameter ⟨d.nextParameter, name⟩).catalog.valuesOf id = d.catalog.valuesOf id := by
  refine Catalog.valuesOf_congr rfl fun k v hk => ?_
  obtain ⟨-, hparameter⟩ := h.listingParameters k v hk
  obtain ⟨p, hp⟩ := Table.contains_iff.mp hparameter
  rw [hp]
  exact Table.Keeps.insert h.parameters_fresh _ p hp

/-- A listing that gets a value for a parameter has it behind those that it had. -/
theorem valuesOf_setValue {listing : ListingId} {parameter : ParameterId} {value : String}
    {p : Parameter} (hp : d.catalog.parameters.get? parameter = some p)
    (hnew : d.catalog.listingParameters.get? (listing, parameter) = none) (id : ListingId) :
    (d.setValue listing parameter value).catalog.valuesOf id =
      d.catalog.valuesOf id ++ if listing = id then [⟨p.name, value⟩] else [] := by
  simp only [Catalog.valuesOf, setValue, Table.entries_insert_new hnew, List.filterMap_append,
    List.filterMap_cons, List.filterMap_nil]
  by_cases hid : listing = id <;> simp [hid, hp]

/-- The listings of other shops keep their parameters. -/
theorem valuesOf_dropListings {id : ListingId} {l : ListingData} {shop : ShopId}
    (hl : d.catalog.listings.get? id = some l) (hshop : l.shop ≠ shop) :
    (d.dropListings shop).catalog.valuesOf id = d.catalog.valuesOf id := by
  simp only [Catalog.valuesOf, dropListings, Table.filter, List.filterMap_filter]
  refine List.filterMap_congr fun e _ => ?_
  by_cases hkey : e.1.1 = id
  · have hkept : (d.catalog.listings.filter fun _ l => l.shop == shop).contains e.1.1 = false := by
      rw [Table.contains_eq_false_iff, Table.get?_filter, hkey, hl]
      simp [hshop]
    simp only [Table.filter] at hkept
    simp [hkept]
  · simp [hkey]

end Draft

end Marketplace
