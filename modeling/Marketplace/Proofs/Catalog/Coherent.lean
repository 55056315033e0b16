import Marketplace.Proofs.Catalog.Edit
set_option autoImplicit false

/-!
# Coherent catalogs

`Catalog.Coherent` is the invariant of the catalog's tables: the indexes are those of the rows,
every reference leads to a row, amounts are not negative, and no identifier is ahead of its counter.
Every update of a draft keeps it, and `Draft.Evolves` says what no update takes back.

The proofs have one lemma for each update and not for each change, so that a change that comes to
make another one of the updates has its invariant already.  That nothing is taken back
(`Draft.Evolves`) is shown beside it, for the two are used together.
-/

namespace Marketplace

/-- The tables of a catalog fit together, and the counters are not behind them. -/
structure Catalog.Coherent (c : Catalog) (n : CatalogCounters) : Prop where
  shops : c.shops.All fun id s => s.id = id ∧ id.value ≤ n.shop
  shopNames : c.shopNames.Indexes c.shops Shop.name
  shopOwners : c.shopOwners.Indexes c.shops Shop.owner
  categories : c.categories.All fun _ row => ∀ shop ∈ row.shops, c.shops.contains shop = true
  products : c.products.All fun id p =>
    p.id = id ∧ id.value ≤ n.product ∧ c.categories.contains p.category = true
  productKeys : c.productKeys.Indexes c.products fun p => (p.category, p.name)
  listings : c.listings.All fun id l =>
    id.value ≤ n.listing ∧ c.products.contains l.product = true ∧
      c.shops.contains l.shop = true ∧ 0 ≤ l.price ∧ 0 ≤ l.priceRrc ∧ 0 ≤ l.quantity
  parameters : c.parameters.All fun id p => p.id = id ∧ id.value ≤ n.parameter
  parameterNames : c.parameterNames.Indexes c.parameters Parameter.name
  listingParameters : c.listingParameters.All fun k _ =>
    c.listings.contains k.1 = true ∧ c.parameters.contains k.2 = true
  /-- Listings stand in the order in which they were given their identifiers. -/
  ascending : c.listings.entries.Pairwise fun a b => a.1.value < b.1.value

/-- What a visitor sees of a listing whose product, category and shop are there. -/
theorem Catalog.view?_eq {c : Catalog} {l : ListingData} {p : Product} {k : CategoryRow} {s : Shop}
    (hp : c.products.get? l.product = some p) (hk : c.categories.get? p.category = some k)
    (hs : c.shops.get? l.shop = some s) (id : ListingId) :
    c.view? id l = some ⟨id, l.model, l.externalId, l.quantity, l.price, l.priceRrc, p.id, p.name,
      p.category, k.name, s.ref, c.parametersOf id⟩ := by
  simp [Catalog.view?, hp, hk, hs]

namespace Catalog.Coherent

variable {c : Catalog} {n m : CatalogCounters}

/-- Tables without rows have nothing that could fail to fit. -/
theorem empty (n : CatalogCounters) : Catalog.empty.Coherent n where
  shops := .empty
  shopNames := .empty
  shopOwners := .empty
  categories := .empty
  products := .empty
  productKeys := .empty
  listings := .empty
  parameters := .empty
  parameterNames := .empty
  listingParameters := .empty
  ascending := List.Pairwise.nil

/-- Counters may go ahead: an identifier that is behind a counter is behind a later one. -/
theorem mono (h : c.Coherent n) (hnm : n ≤ m) : c.Coherent m :=
  { h with
    shops := h.shops.imp fun _ _ hs => ⟨hs.1, Int.le_trans hs.2 hnm.shop⟩
    products := h.products.imp fun _ _ hp => ⟨hp.1, Int.le_trans hp.2.1 hnm.product, hp.2.2⟩
    listings := h.listings.imp fun _ _ hl => ⟨Int.le_trans hl.1 hnm.listing, hl.2⟩
    parameters := h.parameters.imp fun _ _ hp => ⟨hp.1, Int.le_trans hp.2 hnm.parameter⟩ }

/-! ## Identifiers that have not been given yet

The number after a counter is that of no row.  This is what makes a row that is added a new one.
-/

theorem shops_fresh (h : c.Coherent n) : c.shops.get? ⟨n.shop + 1⟩ = none := by
  refine Option.eq_none_iff_forall_ne_some.mpr fun s hs => ?_
  have hle := (h.shops _ s hs).2
  simp only at hle
  omega

theorem products_fresh (h : c.Coherent n) : c.products.get? ⟨n.product + 1⟩ = none := by
  refine Option.eq_none_iff_forall_ne_some.mpr fun p hp => ?_
  have hle := (h.products _ p hp).2.1
  simp only at hle
  omega

theorem listings_fresh (h : c.Coherent n) : c.listings.get? ⟨n.listing + 1⟩ = none := by
  refine Option.eq_none_iff_forall_ne_some.mpr fun l hl => ?_
  have hle := (h.listings _ l hl).1
  simp only at hle
  omega

theorem parameters_fresh (h : c.Coherent n) : c.parameters.get? ⟨n.parameter + 1⟩ = none := by
  refine Option.eq_none_iff_forall_ne_some.mpr fun p hp => ?_
  have hle := (h.parameters _ p hp).2
  simp only at hle
  omega

/-! ## What coherence gives to readers -/

/-- No two shops share a name. -/
theorem shop_name_injective (h : c.Coherent n) {id id' : ShopId} {s s' : Shop}
    (hs : c.shops.get? id = some s) (hs' : c.shops.get? id' = some s') (hname : s.name = s'.name) :
    id = id' :=
  h.shopNames.key_injective hs hs' hname

/-- No two shops share an owner. -/
theorem shop_owner_injective (h : c.Coherent n) {id id' : ShopId} {s s' : Shop}
    (hs : c.shops.get? id = some s) (hs' : c.shops.get? id' = some s')
    (howner : s.owner = s'.owner) : id = id' :=
  h.shopOwners.key_injective hs hs' howner

/-- The shop that is found by a name is the one that has it: the index has no other entries, and
misses none. -/
theorem shopNamed?_eq_some_iff (h : c.Coherent n) {name : String} {s : Shop} :
    c.shopNamed? name = some s ↔ c.shops.get? s.id = some s ∧ s.name = name := by
  rw [Catalog.shopNamed?, Option.bind_eq_some_iff]
  constructor
  · rintro ⟨id, hid, hs⟩
    obtain ⟨s', hs', hname⟩ := (h.shopNames name id).mp hid
    rw [hs] at hs'
    cases hs'
    rw [(h.shops id s hs).1]
    exact ⟨hs, hname⟩
  · rintro ⟨hs, hname⟩
    exact ⟨s.id, (h.shopNames name s.id).mpr ⟨s, hs, hname⟩, hs⟩

/-- The shop that is found by an owner is the one that has it. -/
theorem shopOf?_eq_some_iff (h : c.Coherent n) {owner : UserId} {s : Shop} :
    c.shopOf? owner = some s ↔ c.shops.get? s.id = some s ∧ s.owner = owner := by
  rw [Catalog.shopOf?, Option.bind_eq_some_iff]
  constructor
  · rintro ⟨id, hid, hs⟩
    obtain ⟨s', hs', howner⟩ := (h.shopOwners owner id).mp hid
    rw [hs] at hs'
    cases hs'
    rw [(h.shops id s hs).1]
    exact ⟨hs, howner⟩
  · rintro ⟨hs, howner⟩
    exact ⟨s.id, (h.shopOwners owner s.id).mpr ⟨s, hs, howner⟩, hs⟩

/-- Any shop is found by its name. -/
theorem shopNamed?_of_get? (h : c.Coherent n) {id : ShopId} {s : Shop} {name : String}
    (hs : c.shops.get? id = some s) (hname : s.name = name) : c.shopNamed? name = some s :=
  h.shopNamed?_eq_some_iff.mpr ⟨by rwa [(h.shops id s hs).1], hname⟩

/-- Any shop is found by its owner. -/
theorem shopOf?_of_get? (h : c.Coherent n) {id : ShopId} {s : Shop} {owner : UserId}
    (hs : c.shops.get? id = some s) (howner : s.owner = owner) : c.shopOf? owner = some s :=
  h.shopOf?_eq_some_iff.mpr ⟨by rwa [(h.shops id s hs).1], howner⟩

/-- A visitor sees every listing, with the identifier and the shop of its row.  All that a view is
made of is there in a coherent catalog. -/
theorem exists_view (h : c.Coherent n) {id : ListingId} {l : ListingData}
    (hl : c.listings.get? id = some l) :
    ∃ v, c.view? id l = some v ∧ v.id = id ∧ v.shop.id = l.shop := by
  obtain ⟨-, hproduct, hshop, -⟩ := h.listings id l hl
  obtain ⟨p, hp⟩ := Table.contains_iff.mp hproduct
  obtain ⟨s, hs⟩ := Table.contains_iff.mp hshop
  obtain ⟨k, hk⟩ := Table.contains_iff.mp (h.products _ p hp).2.2
  exact ⟨_, view?_eq hp hk hs id, rfl, (h.shops _ s hs).1⟩

/-- Whatever a visitor sees of a listing has the identifier and the shop of its row. -/
theorem view_eq (h : c.Coherent n) {id : ListingId} {l : ListingData} {v : ListingView}
    (hl : c.listings.get? id = some l) (hv : c.view? id l = some v) :
    v.id = id ∧ v.shop.id = l.shop := by
  obtain ⟨v', hv', hsame⟩ := h.exists_view hl
  rw [hv] at hv'
  rwa [Option.some.inj hv']

/-- The listing of an identifier as a visitor sees it is that of its row. -/
theorem exists_listing (h : c.Coherent n) {id : ListingId} {l : ListingData}
    (hl : c.listings.get? id = some l) : ∃ v, c.listing? id = some v ∧ v.shop.id = l.shop := by
  obtain ⟨v, hv, -, hshop⟩ := h.exists_view hl
  exact ⟨v, by rw [listing?, hl, Option.bind_some, hv], hshop⟩

end Catalog.Coherent

/-! ## What no update takes back -/

/-- The second draft comes from the first one: counters have not gone back, shops, products and
parameters are still there, categories keep their names, and a listing is either an old one,
unchanged, or has an identifier that had not been given. -/
structure Draft.Evolves (d e : Draft) : Prop where
  counters : d.counters ≤ e.counters
  shops : d.catalog.shops.Keeps e.catalog.shops
  categories : ∀ k row, d.catalog.categories.get? k = some row →
    ∃ links, e.catalog.categories.get? k = some ⟨row.name, links⟩
  products : d.catalog.products.Keeps e.catalog.products
  parameters : d.catalog.parameters.Keeps e.catalog.parameters
  listings : ∀ id l, e.catalog.listings.get? id = some l →
    d.catalog.listings.get? id = some l ∨ d.counters.listing < id.value

namespace Draft.Evolves

variable {d e f : Draft}

/-- A draft takes nothing back that it had. -/
theorem refl (d : Draft) : d.Evolves d where
  counters := CatalogCounters.le_refl _
  shops := .refl _
  categories := fun _ row h => ⟨row.shops, h⟩
  products := .refl _
  parameters := .refl _
  listings := fun _ _ h => Or.inl h

/-- What two updates leave in place is left in place. -/
theorem trans (h : d.Evolves e) (h' : e.Evolves f) : d.Evolves f where
  counters := CatalogCounters.le_trans h.counters h'.counters
  shops := h.shops.trans h'.shops
  categories := by
    intro k row hrow
    obtain ⟨links, hlinks⟩ := h.categories k row hrow
    obtain ⟨links', hlinks'⟩ := h'.categories k _ hlinks
    exact ⟨links', hlinks'⟩
  products := h.products.trans h'.products
  parameters := h.parameters.trans h'.parameters
  listings := by
    intro id l hl
    rcases h'.listings id l hl with hold | hnew
    · exact h.listings id l hold
    · exact Or.inr (Int.lt_of_le_of_lt h.counters.listing hnew)

end Draft.Evolves

/-! ## Every update keeps coherence and evolves the draft -/

namespace Draft

variable {d : Draft}

/-- The draft's catalog fits together, with the draft's counters. -/
abbrev Coherent (d : Draft) : Prop := d.catalog.Coherent d.counters

/-- The change of counters by one is a step forward. -/
theorem counters_le (n : CatalogCounters) :
    n ≤ { n with shop := n.shop + 1 } ∧ n ≤ { n with product := n.product + 1 } ∧
      n ≤ { n with listing := n.listing + 1 } ∧ n ≤ { n with parameter := n.parameter + 1 } := by
  refine ⟨?_, ?_, ?_, ?_⟩ <;> constructor <;> simp only <;> omega

/-- A shop may be added if nobody has its name and its owner has none. -/
theorem Coherent.addShop (h : d.Coherent) {name : String} {owner : UserId}
    (hname : d.catalog.shopNames.get? name = none)
    (howner : d.catalog.shopOwners.get? owner = none) :
    (d.addShop (d.newShop name owner)).Coherent := by
  have hfresh := h.shops_fresh
  have hkeep : ∀ {shop : ShopId}, d.catalog.shops.contains shop = true →
      (d.addShop (d.newShop name owner)).catalog.shops.contains shop = true :=
    fun hs => (Table.Keeps.insert hfresh).contains hs
  exact
    { h.mono (counters_le d.counters).1 with
      shops := (h.mono (counters_le d.counters).1).shops.insert ⟨rfl, Int.le_refl _⟩
      shopNames := h.shopNames.insert hfresh hname
      shopOwners := h.shopOwners.insert hfresh howner
      categories := h.categories.imp fun _ _ hrow shop hs => hkeep (hrow shop hs)
      listings := h.listings.imp fun _ _ hl => ⟨hl.1, hl.2.1, hkeep hl.2.2.1, hl.2.2.2⟩ }

theorem Evolves.addShop (h : d.Coherent) (name : String) (owner : UserId) :
    d.Evolves (d.addShop (d.newShop name owner)) :=
  { refl d with
    counters := (counters_le d.counters).1
    shops := .insert h.shops_fresh }

/-- The shops that a category is linked to must be there. -/
theorem Coherent.setCategory (h : d.Coherent) {id : CategoryId} {row : CategoryRow}
    (hrow : ∀ shop ∈ row.shops, d.catalog.shops.contains shop = true) :
    (d.setCategory id row).Coherent :=
  { h with
    categories := h.categories.insert hrow
    products := h.products.imp fun _ _ hp => ⟨hp.1, hp.2.1, by simp [Draft.setCategory, hp.2.2]⟩ }

/-- A category is only ever given a row that keeps its name. -/
theorem Evolves.setCategory {id : CategoryId} {row : CategoryRow}
    (hrow : ∀ old, d.catalog.categories.get? id = some old → row.name = old.name) :
    d.Evolves (d.setCategory id row) :=
  { refl d with
    categories := by
      intro k old hold
      simp only [Draft.setCategory, Table.get?_insert]
      split
      · rename_i hk
        subst hk
        exact ⟨row.shops, by rw [← hrow old hold]⟩
      · exact ⟨old.shops, hold⟩ }

/-- No row refers to a listing but the values of its parameters, which go with it. -/
theorem Coherent.dropListings (h : d.Coherent) (shop : ShopId) : (d.dropListings shop).Coherent :=
  { h with
    listings := h.listings.filter _
    listingParameters := by
      intro k v hv
      obtain ⟨hold, hkept⟩ := Table.get?_filter_eq_some_iff.mp hv
      obtain ⟨hlisting, hparameter⟩ := h.listingParameters k v hold
      refine ⟨?_, hparameter⟩
      obtain ⟨l, hl⟩ := Table.contains_iff.mp hlisting
      -- The parameter was kept, so its listing is not one of the shop.
      simp only [Table.contains, Table.get?_filter, hl, Bool.not_eq_true',
        Option.isSome_eq_false_iff, Option.isNone_iff_eq_none, Option.filter_eq_none_iff,
        Option.some.injEq] at hkept
      have hshop : (l.shop != shop) = true := by simpa using hkept l rfl
      simp [Draft.dropListings, Table.contains, Table.get?_filter, hl, hshop]
    ascending := h.ascending.filter _ }

theorem Evolves.dropListings (d : Draft) (shop : ShopId) : d.Evolves (d.dropListings shop) :=
  { refl d with
    listings := by
      intro id l hl
      exact Or.inl (Table.get?_filter_eq_some_iff.mp hl).1 }

/-- A product may be added if its category is there and has none of the name. -/
theorem Coherent.addProduct (h : d.Coherent) {name : String} {category : CategoryId}
    (hcategory : d.catalog.categories.contains category = true)
    (hkey : d.catalog.productKeys.get? (category, name) = none) :
    (d.addProduct ⟨d.nextProduct, name, category⟩).Coherent :=
  { h.mono (counters_le d.counters).2.1 with
    products := (h.mono (counters_le d.counters).2.1).products.insert
      ⟨rfl, Int.le_refl _, hcategory⟩
    productKeys := h.productKeys.insert h.products_fresh hkey
    listings := h.listings.imp fun _ _ hl =>
      ⟨hl.1, (Table.Keeps.insert h.products_fresh).contains hl.2.1, hl.2.2⟩ }

theorem Evolves.addProduct (h : d.Coherent) (name : String) (category : CategoryId) :
    d.Evolves (d.addProduct ⟨d.nextProduct, name, category⟩) :=
  { refl d with
    counters := (counters_le d.counters).2.1
    products := .insert h.products_fresh }

/-- Both ends of a listing must be there, and its amounts must not be negative. -/
theorem Coherent.addListing (h : d.Coherent) {l : ListingData}
    (hproduct : d.catalog.products.contains l.product = true)
    (hshop : d.catalog.shops.contains l.shop = true)
    (hsigns : 0 ≤ l.price ∧ 0 ≤ l.priceRrc ∧ 0 ≤ l.quantity) : (d.addListing l).Coherent :=
  { h.mono (counters_le d.counters).2.2.1 with
    listings := (h.mono (counters_le d.counters).2.2.1).listings.insert
      ⟨Int.le_refl _, hproduct, hshop, hsigns⟩
    listingParameters := h.listingParameters.imp fun _ _ hk =>
      ⟨(Table.Keeps.insert h.listings_fresh).contains hk.1, hk.2⟩
    ascending := by
      simp only [Draft.addListing, nextListing, Table.entries_insert_new h.listings_fresh]
      refine List.pairwise_append.mpr ⟨h.ascending, List.pairwise_singleton _ _, ?_⟩
      intro a ha b hb
      rw [List.mem_singleton.mp hb]
      have hle := (h.listings a.1 a.2 (Table.mem_entries_iff.mp ha)).1
      simp only
      omega }

theorem Evolves.addListing (d : Draft) (l : ListingData) : d.Evolves (d.addListing l) :=
  { refl d with
    counters := (counters_le d.counters).2.2.1
    listings := by
      intro id k hk
      simp only [Draft.addListing, Table.get?_insert] at hk
      split at hk
      · rename_i hid
        rw [← hid]
        exact Or.inr (Int.lt_succ _)
      · exact Or.inl hk }

theorem Coherent.addParameter (h : d.Coherent) {name : String}
    (hname : d.catalog.parameterNames.get? name = none) :
    (d.addParameter ⟨d.nextParameter, name⟩).Coherent :=
  { h.mono (counters_le d.counters).2.2.2 with
    parameters := (h.mono (counters_le d.counters).2.2.2).parameters.insert
      ⟨rfl, Int.le_refl _⟩
    parameterNames := h.parameterNames.insert h.parameters_fresh hname
    listingParameters := h.listingParameters.imp fun _ _ hk =>
      ⟨hk.1, (Table.Keeps.insert h.parameters_fresh).contains hk.2⟩ }

theorem Evolves.addParameter (h : d.Coherent) (name : String) :
    d.Evolves (d.addParameter ⟨d.nextParameter, name⟩) :=
  { refl d with
    counters := (counters_le d.counters).2.2.2
    parameters := .insert h.parameters_fresh }

theorem Coherent.setValue (h : d.Coherent) {listing : ListingId} {parameter : ParameterId}
    (value : String) (hlisting : d.catalog.listings.contains listing = true)
    (hparameter : d.catalog.parameters.contains parameter = true) :
    (d.setValue listing parameter value).Coherent :=
  { h with
    listingParameters := h.listingParameters.insert ⟨hlisting, hparameter⟩ }

theorem Evolves.setValue (d : Draft) (listing : ListingId) (parameter : ParameterId)
    (value : String) : d.Evolves (d.setValue listing parameter value) :=
  { refl d with }

end Draft

end Marketplace
