import Marketplace.Proofs.Import.Phases
set_option autoImplicit false

/-!
# Goods that become listings

Each good gets a product, a listing and the listing's parameters; products and parameters of earlier
imports are used again.  `Added` says what has become of the draft when some goods are in: there are
new listings behind the old ones, they offer the goods in their order, and nothing else that a
visitor sees is different.
-/

namespace Marketplace

namespace Draft

variable {d e : Draft}

/-- The product of a name in a category is there once it has been asked for, whether it is new or
not. -/
theorem upsertProduct_there (h : d.Coherent) {name : String} {category : CategoryId}
    {id : ProductId} (hup : upsertProduct name category d = .ok (id, e)) :
    e.catalog.products.get? id = some ⟨id, name, category⟩ := by
  obtain ⟨-, ⟨hkey, rfl⟩ | ⟨-, rfl, rfl⟩⟩ := upsertProduct_ok hup
  · obtain ⟨p, hp, hnamed⟩ := (h.productKeys (category, name) id).mp hkey
    obtain ⟨rfl, rfl⟩ := Prod.mk.inj hnamed
    rw [hp, ← (h.products id p hp).1]
  · simp [addProduct]

/-- What a visitor sees of a draft, but for products and parameters, is as before.  Products and
parameters may be added while no listing refers to them yet, and this is the state in between. -/
structure SameRows (d e : Draft) : Prop where
  shops : e.catalog.shops = d.catalog.shops
  categories : e.catalog.categories = d.catalog.categories
  listings : e.catalog.listings = d.catalog.listings
  counter : e.counters.listing = d.counters.listing

theorem SameRows.trans {f : Draft} (h : d.SameRows e) (h' : e.SameRows f) : d.SameRows f :=
  ⟨h'.shops.trans h.shops, h'.categories.trans h.categories, h'.listings.trans h.listings,
    h'.counter.trans h.counter⟩

theorem upsertProduct_sameRows {name : String} {category : CategoryId} {id : ProductId}
    (hup : upsertProduct name category d = .ok (id, e)) :
    d.SameRows e ∧ ∀ listing, e.catalog.valuesOf listing = d.catalog.valuesOf listing := by
  obtain ⟨-, ⟨-, rfl⟩ | ⟨-, -, rfl⟩⟩ := upsertProduct_ok hup
  · exact ⟨⟨rfl, rfl, rfl, rfl⟩, fun _ => rfl⟩
  · exact ⟨⟨rfl, rfl, rfl, rfl⟩, fun _ => rfl⟩

/-- The parameter of a name is there once it has been asked for, and no listing has changed. -/
theorem upsertParameter_sameRows (h : d.Coherent) {name : String} {id : ParameterId}
    (hup : upsertParameter name d = .ok (id, e)) :
    d.SameRows e ∧ (∀ listing, e.catalog.valuesOf listing = d.catalog.valuesOf listing) ∧
      ∃ p, e.catalog.parameters.get? id = some p ∧ p.name = name := by
  rcases upsertParameter_ok hup with ⟨hname, rfl⟩ | ⟨-, rfl, rfl⟩
  · exact ⟨⟨rfl, rfl, rfl, rfl⟩, fun _ => rfl, (h.parameterNames name id).mp hname⟩
  · refine ⟨⟨rfl, rfl, rfl, rfl⟩, valuesOf_addParameter h name, ⟨d.nextParameter, name⟩, ?_, rfl⟩
    simp [addParameter]

end Draft

namespace Importer

variable {d d' e : Draft}

/-- The listing has the parameters behind those that it had, and no other listing has any more.  The
induction is on the parameters, each of which may be new to the catalog. -/
theorem insertParameters_does (hd : d.Coherent) {listing : ListingId} {ps : List ParameterEntry}
    (h : (insertParameters listing ps).Does d () e) :
    d.SameRows e ∧ ∀ id, e.catalog.valuesOf id =
      d.catalog.valuesOf id ++ if listing = id then ps.map fun p => ⟨p.1, p.2⟩ else [] := by
  induction ps generalizing d with
  | nil =>
    obtain ⟨-, rfl⟩ := does_pure_iff.mp h
    exact ⟨⟨rfl, rfl, rfl, rfl⟩, by simp⟩
  | cons p ps ih =>
    obtain ⟨parameter, d₁, hup, h⟩ := does_bind_iff.mp h
    obtain ⟨⟨⟩, d₂, hset, h⟩ := does_bind_iff.mp h
    obtain ⟨hd₁, -⟩ := hup.evolves hd
    obtain ⟨hd₂, -⟩ := hset.evolves hd₁
    obtain ⟨hsame, hvalues, q, hq, hname⟩ :=
      Draft.upsertParameter_sameRows hd (onDraft_of_does hup)
    obtain ⟨-, -, hnew, rfl⟩ := Draft.insertParameter_ok (onDraft_of_does hset)
    obtain ⟨hrest, hvalues'⟩ := ih hd₂ h
    have hrows : d₁.SameRows (d₁.setValue listing parameter p.2) := ⟨rfl, rfl, rfl, rfl⟩
    refine ⟨(hsame.trans hrows).trans hrest, fun id => ?_⟩
    rw [hvalues', Draft.valuesOf_setValue hq hnew, hvalues, hname, List.append_assoc]
    by_cases hid : listing = id <;> simp [hid]

/-- What has become of the draft when goods have been added to a shop.  The new listings are given
as a list behind the old ones, so that the offers and their sequence are one equation. -/
structure Added (shop : ShopId) (goods : List Good) (d e : Draft) : Prop where
  shops : e.catalog.shops = d.catalog.shops
  categories : e.catalog.categories = d.catalog.categories
  /-- The listings of before keep their parameters. -/
  values : ∀ id : ListingId, id.value ≤ d.counters.listing →
    e.catalog.valuesOf id = d.catalog.valuesOf id
  listings : ∃ new : List (ListingId × ListingData),
    e.catalog.listings.entries = d.catalog.listings.entries ++ new ∧
      (∀ x ∈ new, d.counters.listing < x.1.value ∧ x.2.shop = shop) ∧
        new.map (fun x => e.catalog.offer? x.1 x.2) = goods.map fun g => some g.offer

namespace Added

variable {shop : ShopId} {goods goods' : List Good}

theorem refl (shop : ShopId) (d : Draft) : Added shop [] d d where
  shops := rfl
  categories := rfl
  values := fun _ _ => rfl
  listings := ⟨[], by simp, by simp, rfl⟩

/-- One list of goods after another.  The first listings keep their offers while the others are
added, for products and parameters stay and their values are not touched. -/
theorem trans (h : Added shop goods d d') (h' : Added shop goods' d' e) (hd' : d'.Coherent)
    (hfrom : d.Evolves d') (hto : d'.Evolves e) : Added shop (goods ++ goods') d e where
  shops := h'.shops.trans h.shops
  categories := h'.categories.trans h.categories
  values := by
    intro id hid
    rw [h'.values id (Int.le_trans hid hfrom.counters.listing), h.values id hid]
  listings := by
    obtain ⟨new, hentries, hnew, hoffers⟩ := h.listings
    obtain ⟨new', hentries', hnew', hoffers'⟩ := h'.listings
    refine ⟨new ++ new', by rw [hentries', hentries, List.append_assoc], ?_, ?_⟩
    · intro x hx
      rcases List.mem_append.mp hx with hx | hx
      · exact hnew x hx
      · exact ⟨Int.lt_of_le_of_lt hfrom.counters.listing (hnew' x hx).1, (hnew' x hx).2⟩
    · -- The listings that were added first still offer the same.
      have hstill : ∀ x ∈ new, e.catalog.offer? x.1 x.2 = d'.catalog.offer? x.1 x.2 := by
        intro x hx
        have hrow : d'.catalog.listings.get? x.1 = some x.2 := by
          rw [← Table.mem_entries_iff, hentries]
          exact List.mem_append_right _ hx
        obtain ⟨hgiven, hproduct, -⟩ := hd'.listings x.1 x.2 hrow
        exact Catalog.offer?_eq hto.products hproduct (h'.values x.1 hgiven)
      rw [List.map_append, List.map_append, List.map_congr_left hstill, hoffers, hoffers']

end Added

/-- One good becomes a product, a listing behind all others, and the parameters of that listing. -/
theorem insertGood_does (hd : d.Coherent) {shop : ShopId} {g : Good}
    (h : (insertGood shop g).Does d () e) : Added shop [g] d e := by
  obtain ⟨product, d₁, hup, h⟩ := does_bind_iff.mp h
  obtain ⟨listing, d₂, hinsert, h⟩ := does_bind_iff.mp h
  obtain ⟨hd₁, -⟩ := hup.evolves hd
  obtain ⟨hd₂, -⟩ := hinsert.evolves hd₁
  obtain ⟨-, hkept⟩ := h.evolves hd₂
  have hproduct := Draft.upsertProduct_there hd (onDraft_of_does hup)
  obtain ⟨hsame, hvalues⟩ := Draft.upsertProduct_sameRows (onDraft_of_does hup)
  obtain ⟨-, -, -, -, -, rfl, rfl⟩ := Draft.insertListing_ok (onDraft_of_does hinsert)
  obtain ⟨hrest, hvalues'⟩ := insertParameters_does hd₂ h
  have hnext : d.counters.listing < d₁.nextListing.value := by
    simp only [Draft.nextListing, hsame.counter]
    omega
  have hfresh : d.catalog.valuesOf d₁.nextListing = [] := by
    rw [← hvalues]
    exact hd₁.valuesOf_eq_nil hd₁.listings_fresh
  refine ⟨hrest.shops.trans hsame.shops, hrest.categories.trans hsame.categories, ?_, ?_⟩
  · intro id hid
    have hold : d₁.nextListing ≠ id := by
      rintro rfl
      omega
    rw [hvalues', if_neg hold, List.append_nil]
    exact hvalues id
  · refine ⟨[(d₁.nextListing, ⟨product, shop, g.model, g.externalId, g.quantity, g.price,
      g.priceRrc⟩)], ?_, ?_, ?_⟩
    · rw [hrest.listings, ← hsame.listings]
      exact Table.entries_insert_new hd₁.listings_fresh
    · simpa using hnext
    · have hnow : e.catalog.valuesOf d₁.nextListing = g.values := by
        rw [hvalues', if_pos rfl]
        exact (congrArg (· ++ g.values) ((hvalues _).trans hfresh)).trans (List.nil_append _)
      have hthere := hkept.products product _ hproduct
      simp only [List.map_cons, List.map_nil, Catalog.offer?, hthere, Option.map_some,
        Catalog.parametersOf_eq, hnow, Good.offer]

/-- All goods become listings, by induction on their list. -/
theorem insertGoods_does (hd : d.Coherent) {shop : ShopId} {gs : List Good}
    (h : (insertGoods shop gs).Does d () e) : Added shop gs d e := by
  induction gs generalizing d with
  | nil =>
    obtain ⟨-, rfl⟩ := does_pure_iff.mp h
    exact .refl shop e
  | cons g gs ih =>
    obtain ⟨⟨⟩, d₁, hgood, h⟩ := does_bind_iff.mp h
    obtain ⟨hd₁, hfrom⟩ := hgood.evolves hd
    obtain ⟨-, hto⟩ := h.evolves hd₁
    exact (insertGood_does hd hgood).trans (ih hd₁ h) hd₁ hfrom hto

end Importer

end Marketplace
