import Marketplace.Catalog.Draft
import Marketplace.Proofs.Table
set_option autoImplicit false

/-!
# What a change of a draft does

Each change either fails or makes one of seven updates of the tables.  This module names the updates
and says of each change when it succeeds and which update it then makes, so that whoever reasons
about drafts does not open the changes again.
-/

namespace Marketplace

/-- No counter of the first counters is ahead of the second ones.  Counters belong to the whole
store, not to the draft, so this is also how two drafts of different imports are compared. -/
structure CatalogCounters.Le (n m : CatalogCounters) : Prop where
  shop : n.shop ≤ m.shop
  product : n.product ≤ m.product
  listing : n.listing ≤ m.listing
  parameter : n.parameter ≤ m.parameter

instance : LE CatalogCounters := ⟨CatalogCounters.Le⟩

theorem CatalogCounters.le_refl (n : CatalogCounters) : n ≤ n :=
  ⟨Int.le_refl _, Int.le_refl _, Int.le_refl _, Int.le_refl _⟩

theorem CatalogCounters.le_trans {n m k : CatalogCounters} (h : n ≤ m) (h' : m ≤ k) : n ≤ k :=
  ⟨Int.le_trans h.shop h'.shop, Int.le_trans h.product h'.product,
    Int.le_trans h.listing h'.listing, Int.le_trans h.parameter h'.parameter⟩

/-- A sorted list without repetitions takes an identifier that it has already as it takes a new
one. -/
theorem Id.mem_insertSorted {kind : IdKind} {i j : Id kind} {js : List (Id kind)} :
    j ∈ insertSorted i js ↔ j = i ∨ j ∈ js := by
  induction js with
  | nil => simp [insertSorted]
  | cons k ks ih =>
    simp only [insertSorted]
    split
    · rename_i he
      rw [eq_of_beq he, List.mem_cons, or_self_left]
    · split
      · exact List.mem_cons
      · rw [List.mem_cons, ih, List.mem_cons]
        exact or_left_comm

theorem Id.mem_sorted {kind : IdKind} {i : Id kind} {ids : List (Id kind)} :
    i ∈ sorted ids ↔ i ∈ ids := by
  induction ids with
  | nil => rfl
  | cons j js ih =>
    rw [List.mem_cons, ← ih]
    exact mem_insertSorted

/-- An identifier that is there already is not put in again, so identifiers go on ascending
strictly. -/
theorem Id.pairwise_insertSorted {kind : IdKind} (i : Id kind) {js : List (Id kind)}
    (h : js.Pairwise fun a b => a.value < b.value) :
    (insertSorted i js).Pairwise fun a b => a.value < b.value := by
  induction js with
  | nil => exact List.pairwise_singleton _ _
  | cons k ks ih =>
    obtain ⟨hk, hks⟩ := List.pairwise_cons.mp h
    simp only [insertSorted]
    split
    · exact h
    · rename_i hne
      split
      · rename_i hlt
        refine List.pairwise_cons.mpr ⟨fun j hj => ?_, h⟩
        rcases List.mem_cons.mp hj with rfl | hj
        · exact hlt
        · exact Int.lt_trans hlt (hk j hj)
      · rename_i hnot
        refine List.pairwise_cons.mpr ⟨fun j hj => ?_, ih hks⟩
        rcases mem_insertSorted.mp hj with rfl | hj
        · have hvalue : j.value ≠ k.value := by
            intro hvalue
            cases j
            cases k
            simp_all
          omega
        · exact hk j hj

/-- Sorted identifiers ascend, so each of them is there once. -/
theorem Id.pairwise_sorted {kind : IdKind} (ids : List (Id kind)) :
    (sorted ids).Pairwise fun a b => a.value < b.value := by
  induction ids with
  | nil => exact .nil
  | cons i ids ih => exact pairwise_insertSorted i ih

namespace Draft

/-! ## Updates

The updates are total and say nothing of when they may be made.  What a change requires is in the
lemmas below, which name the update, and the invariants are shown to be kept update by update.
-/

/-- The draft with a new shop and its index entries. -/
def addShop (d : Draft) (s : Shop) : Draft where
  catalog := { d.catalog with
    shopNames := d.catalog.shopNames.insert s.name s.id
    shopOwners := d.catalog.shopOwners.insert s.owner s.id
    shops := d.catalog.shops.insert s.id s }
  counters := { d.counters with shop := d.counters.shop + 1 }

/-- The draft with a row for a category. -/
def setCategory (d : Draft) (id : CategoryId) (row : CategoryRow) : Draft where
  catalog := { d.catalog with categories := d.catalog.categories.insert id row }
  counters := d.counters

/-- The draft without the listings of a shop and without their parameters.  No row refers to a
listing but its own parameters, so nothing else has to go. -/
def dropListings (d : Draft) (shop : ShopId) : Draft where
  catalog := { d.catalog with
    listings := d.catalog.listings.filter fun _ l => l.shop != shop
    listingParameters := d.catalog.listingParameters.filter fun k _ =>
      !(d.catalog.listings.filter fun _ l => l.shop == shop).contains k.1 }
  counters := d.counters

/-- The identifier of the next product. -/
def nextProduct (d : Draft) : ProductId := ⟨d.counters.product + 1⟩

/-- The draft with a new product and its index entry. -/
def addProduct (d : Draft) (p : Product) : Draft where
  catalog := { d.catalog with
    products := d.catalog.products.insert p.id p
    productKeys := d.catalog.productKeys.insert (p.category, p.name) p.id }
  counters := { d.counters with product := d.counters.product + 1 }

/-- The identifier of the next listing. -/
def nextListing (d : Draft) : ListingId := ⟨d.counters.listing + 1⟩

/-- The draft with a new listing. -/
def addListing (d : Draft) (l : ListingData) : Draft where
  catalog := { d.catalog with listings := d.catalog.listings.insert d.nextListing l }
  counters := { d.counters with listing := d.counters.listing + 1 }

/-- The identifier of the next parameter. -/
def nextParameter (d : Draft) : ParameterId := ⟨d.counters.parameter + 1⟩

/-- The draft with a new parameter and its index entry. -/
def addParameter (d : Draft) (p : Parameter) : Draft where
  catalog := { d.catalog with
    parameters := d.catalog.parameters.insert p.id p
    parameterNames := d.catalog.parameterNames.insert p.name p.id }
  counters := { d.counters with parameter := d.counters.parameter + 1 }

/-- The draft with a value for a parameter of a listing. -/
def setValue (d : Draft) (listing : ListingId) (parameter : ParameterId) (value : String) :
    Draft where
  catalog := { d.catalog with
    listingParameters := d.catalog.listingParameters.insert (listing, parameter) value }
  counters := d.counters

/-! ## When a change succeeds, and what it does then

Each lemma turns the success of one change around: the guards that it has passed, and the update
that it is.  Changes that add a row only if there is none have two outcomes.
-/

variable {d e : Draft}

/-- A shop is made if neither its name nor its owner has one. -/
theorem createShop_ok {name : String} {owner : UserId} {s : Shop}
    (h : createShop name owner d = .ok (s, e)) :
    d.catalog.shopNames.get? name = none ∧ d.catalog.shopOwners.get? owner = none ∧
      s = d.newShop name owner ∧ e = d.addShop (d.newShop name owner) := by
  simp only [createShop] at h
  split at h
  · cases h
  · rename_i hname
    split at h
    · cases h
    · rename_i howner
      cases h
      exact ⟨Table.contains_eq_false_iff.mp (eq_false_of_ne_true hname),
        Table.contains_eq_false_iff.mp (eq_false_of_ne_true howner), rfl, rfl⟩

/-- A category that is there stays as it is, with its name and its shops. -/
theorem ensureCategory_ok {k : DeclaredCategory} (h : ensureCategory k d = .ok ((), e)) :
    (d.catalog.categories.contains k.id = true ∧ e = d) ∨
      (d.catalog.categories.get? k.id = none ∧ e = d.setCategory k.id ⟨k.name, []⟩) := by
  simp only [ensureCategory] at h
  split at h
  · rename_i hk
    cases h
    exact Or.inl ⟨hk, rfl⟩
  · rename_i hk
    cases h
    exact Or.inr ⟨Table.contains_eq_false_iff.mp (eq_false_of_ne_true hk), rfl⟩

/-- Only a shop and a category that are there are linked, and a second link of the same two changes
nothing. -/
theorem linkCategory_ok {category : CategoryId} {shop : ShopId}
    (h : linkCategory category shop d = .ok ((), e)) :
    d.catalog.shops.contains shop = true ∧ ∃ row,
      d.catalog.categories.get? category = some row ∧
        e = d.setCategory category { row with shops := Id.insertSorted shop row.shops } := by
  simp only [linkCategory] at h
  split at h
  · cases h
  · rename_i hshop
    split at h
    · cases h
    · rename_i row hrow
      cases h
      exact ⟨by simpa using hshop, row, hrow, rfl⟩

theorem deleteListings_ok {shop : ShopId} {n : Nat} (h : deleteListings shop d = .ok (n, e)) :
    n = (d.catalog.listings.filter fun _ l => l.shop == shop).size ∧ e = d.dropListings shop := by
  cases h
  exact ⟨rfl, rfl⟩

/-- A product is found by its category and its name, or it is added. -/
theorem upsertProduct_ok {name : String} {category : CategoryId} {id : ProductId}
    (h : upsertProduct name category d = .ok (id, e)) :
    d.catalog.categories.contains category = true ∧
      ((d.catalog.productKeys.get? (category, name) = some id ∧ e = d) ∨
        (d.catalog.productKeys.get? (category, name) = none ∧ id = d.nextProduct ∧
          e = d.addProduct ⟨d.nextProduct, name, category⟩)) := by
  simp only [upsertProduct] at h
  split at h
  · cases h
  · rename_i hcategory
    refine ⟨by simpa using hcategory, ?_⟩
    split at h
    · rename_i old hold
      cases h
      exact Or.inl ⟨hold, rfl⟩
    · rename_i hnew
      cases h
      exact Or.inr ⟨hnew, rfl, rfl⟩

/-- A listing refers to a product and a shop that are there, and its amounts are not negative. -/
theorem insertListing_ok {l : ListingData} {id : ListingId}
    (h : insertListing l d = .ok (id, e)) :
    d.catalog.products.contains l.product = true ∧ d.catalog.shops.contains l.shop = true ∧
      0 ≤ l.price ∧ 0 ≤ l.priceRrc ∧ 0 ≤ l.quantity ∧ id = d.nextListing ∧
        e = d.addListing l := by
  simp only [insertListing] at h
  split at h
  · cases h
  · rename_i hproduct
    split at h
    · cases h
    · rename_i hshop
      split at h
      · cases h
      · rename_i hsigns
        cases h
        simp only [Bool.or_eq_true, decide_eq_true_eq, not_or, Int.not_lt] at hsigns
        exact ⟨by simpa using hproduct, by simpa using hshop, hsigns.1.1, hsigns.1.2, hsigns.2,
          rfl, rfl⟩

theorem upsertParameter_ok {name : String} {id : ParameterId}
    (h : upsertParameter name d = .ok (id, e)) :
    (d.catalog.parameterNames.get? name = some id ∧ e = d) ∨
      (d.catalog.parameterNames.get? name = none ∧ id = d.nextParameter ∧
        e = d.addParameter ⟨d.nextParameter, name⟩) := by
  simp only [upsertParameter] at h
  split at h
  · rename_i old hold
    cases h
    exact Or.inl ⟨hold, rfl⟩
  · rename_i hnew
    cases h
    exact Or.inr ⟨hnew, rfl, rfl⟩

/-- A parameter of a listing has one value: a second one is refused. -/
theorem insertParameter_ok {listing : ListingId} {parameter : ParameterId} {value : String}
    (h : insertParameter listing parameter value d = .ok ((), e)) :
    d.catalog.listings.contains listing = true ∧
      d.catalog.parameters.contains parameter = true ∧
        d.catalog.listingParameters.get? (listing, parameter) = none ∧
          e = d.setValue listing parameter value := by
  simp only [insertParameter] at h
  split at h
  · cases h
  · rename_i hlisting
    split at h
    · cases h
    · rename_i hparameter
      split at h
      · cases h
      · rename_i hvalue
        cases h
        exact ⟨by simpa using hlisting, by simpa using hparameter,
          Table.contains_eq_false_iff.mp (eq_false_of_ne_true hvalue), rfl⟩

/-! ## What a change needs to succeed

The other direction, for those who have to show that an import goes well.  Where the update matters
the lemma gives it, else only that there is one.
-/

theorem createShop_of_new {name : String} {owner : UserId}
    (hname : d.catalog.shopNames.get? name = none)
    (howner : d.catalog.shopOwners.get? owner = none) :
    createShop name owner d = .ok (d.newShop name owner, d.addShop (d.newShop name owner)) := by
  simp only [createShop, Table.contains_eq_false_iff.mpr hname,
    Table.contains_eq_false_iff.mpr howner]
  rfl

theorem exists_ensureCategory (k : DeclaredCategory) (d : Draft) :
    ∃ e, ensureCategory k d = .ok ((), e) := by
  simp only [ensureCategory]
  split
  · exact ⟨_, rfl⟩
  · exact ⟨_, rfl⟩

theorem exists_linkCategory {category : CategoryId} {shop : ShopId}
    (hshop : d.catalog.shops.contains shop = true)
    (hcategory : d.catalog.categories.contains category = true) :
    ∃ e, linkCategory category shop d = .ok ((), e) := by
  obtain ⟨row, hrow⟩ := Table.contains_iff.mp hcategory
  simp only [linkCategory, hshop, hrow]
  exact ⟨_, rfl⟩

/-- A product needs its category and nothing else, since it is found if it is not new. -/
theorem exists_upsertProduct (name : String) {category : CategoryId}
    (hcategory : d.catalog.categories.contains category = true) :
    ∃ id e, upsertProduct name category d = .ok (id, e) := by
  simp only [upsertProduct, hcategory]
  cases d.catalog.productKeys.get? (category, name) with
  | none => exact ⟨_, _, rfl⟩
  | some id => exact ⟨_, _, rfl⟩

theorem insertListing_of_sound {l : ListingData}
    (hproduct : d.catalog.products.contains l.product = true)
    (hshop : d.catalog.shops.contains l.shop = true) (hprice : 0 ≤ l.price)
    (hpriceRrc : 0 ≤ l.priceRrc) (hquantity : 0 ≤ l.quantity) :
    insertListing l d = .ok (d.nextListing, d.addListing l) := by
  simp only [insertListing, hproduct, hshop, Int.not_lt.mpr hprice, Int.not_lt.mpr hpriceRrc,
    Int.not_lt.mpr hquantity]
  rfl

theorem exists_upsertParameter (name : String) (d : Draft) :
    ∃ id e, upsertParameter name d = .ok (id, e) := by
  simp only [upsertParameter]
  cases d.catalog.parameterNames.get? name with
  | none => exact ⟨_, _, rfl⟩
  | some id => exact ⟨_, _, rfl⟩

theorem insertParameter_of_new {listing : ListingId} {parameter : ParameterId}
    (hlisting : d.catalog.listings.contains listing = true)
    (hparameter : d.catalog.parameters.contains parameter = true)
    (hnew : d.catalog.listingParameters.get? (listing, parameter) = none) (value : String) :
    insertParameter listing parameter value d = .ok ((), d.setValue listing parameter value) := by
  simp only [insertParameter, hlisting, hparameter, Table.contains_eq_false_iff.mpr hnew]
  rfl

end Draft

end Marketplace
