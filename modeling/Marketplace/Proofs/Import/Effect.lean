import Marketplace.Proofs.Import.Goods
import Marketplace.Proofs.Storage.Pool
import Marketplace.Service.Orders
set_option autoImplicit false

/-!
# What an import does

The catalog and the order book after an import that has gone well, whatever has happened to the
store before: the shop offers the goods of the price list and nothing else, and all that is not the
shop's is as it was.
-/

namespace Marketplace

/-- The category is one of those that the list declares. -/
def PriceList.Declares (list : PriceList) (id : CategoryId) : Prop :=
  id ∈ list.categories.map DeclaredCategory.id

/-- The category is that of a good of the list. -/
def PriceList.Mentions (list : PriceList) (id : CategoryId) : Prop :=
  id ∈ list.goods.map Good.category

theorem PriceList.mem_undeclared {list : PriceList} {id : CategoryId} :
    id ∈ list.undeclared ↔ list.Mentions id ∧ ¬list.Declares id := by
  simp [undeclared, Id.mem_sorted, Mentions, Declares]

/-- The category is linked to the shop. -/
def Catalog.Links (c : Catalog) (id : CategoryId) (shop : ShopId) : Prop :=
  ∃ row, c.categories.get? id = some row ∧ shop ∈ row.shops

namespace Importer

variable {list : PriceList} {user : UserId} {summary : ImportSummary} {d e : Draft}

/-- What an import of the list by the user has made of a catalog; the shop is that of the list. -/
structure Effect (list : PriceList) (user : UserId) (shop : ShopId) (c c' : Catalog) : Prop where
  /-- The shop is the user's; if it is new, it accepts orders. -/
  owned : ∃ row, c'.shops.get? shop = some row ∧ row.id = shop ∧ row.name = Text.trim list.shop ∧
    row.owner = user ∧
      (c.shops.get? shop = none → row.url = none ∧ row.acceptingOrders = true)
  /-- Shops stay what they are, and no other shop is new. -/
  shops : c.shops.Keeps c'.shops ∧
    ∀ id, c'.shops.contains id = true → c.shops.contains id = true ∨ id = shop
  /-- The shop has new listings only: in ascending order of their identifiers they offer the
  goods. -/
  listings : ∃ ids : List ListingId,
    ids.Pairwise (fun a b => a.value < b.value) ∧
      (∀ id, id ∈ ids ↔ ∃ l, c'.listings.get? id = some l ∧ l.shop = shop) ∧
        (∀ id ∈ ids, c.listings.get? id = none) ∧
          ids.map (fun id => (c'.listing? id).map ListingView.offer) =
            list.goods.map fun g => some g.offer
  /-- Visitors see the same listings of other shops as before. -/
  others : ∀ id v, v.shop.id ≠ shop → (c'.listing? id = some v ↔ c.listing? id = some v)
  /-- Categories keep their names. -/
  names : ∀ id row, c.categories.get? id = some row →
    ∃ row', c'.categories.get? id = some row' ∧ row'.name = row.name
  /-- Categories keep their links, and the shop is linked to those of the list and to no other. -/
  links : ∀ id other, c'.Links id other ↔
    c.Links id other ∨ (other = shop ∧ (list.Declares id ∨ list.Mentions id))
  /-- Declared categories are there, and no others but those of before. -/
  categories : ∀ id, c'.categories.contains id = true ↔
    c.categories.contains id = true ∨ list.Declares id

/-! ## The parts of an import together -/

/-- The draft when the shop has been found and the categories are linked. -/
def linkedDraft (d : Draft) (t : Table CategoryId CategoryRow) : Draft :=
  { d with catalog := { d.catalog with categories := t } }

/-- The parts of an import that leads from the first draft to the last one: the shop is found, the
categories are linked, the shop's listings are deleted, and the goods are added. -/
structure Parts (list : PriceList) (user : UserId) (shop : Shop) (created : Bool) (d d₁ : Draft)
    (t : Table CategoryId CategoryRow) (e : Draft) : Prop where
  before : d.Coherent
  after : e.Coherent
  evolves : d.Evolves e
  resolved : Resolved (Text.trim list.shop) user shop created d d₁
  known : ∀ id ∈ list.undeclared, d₁.catalog.categories.contains id = true
  linked : Linked shop.id (list.categories.map DeclaredCategory.id ++ list.undeclared)
    d₁.catalog.categories t
  counters : d.counters ≤ (linkedDraft d₁ t).counters
  keeps : (linkedDraft d₁ t).catalog.shops.Keeps e.catalog.shops
  added : Added shop.id list.goods ((linkedDraft d₁ t).dropListings shop.id) e

theorem prepare_does (hd : d.Coherent) (h : (prepare list user).Does d summary e) :
    ∃ (shop : Shop) (d₁ : Draft) (t : Table CategoryId CategoryRow),
      Parts list user shop summary.shopCreated d d₁ t e ∧ summary.shop = shop.id := by
  obtain ⟨he, hevolves⟩ := h.evolves hd
  obtain ⟨⟨shop, created⟩, d₁, hresolve, h⟩ := does_bind_iff.mp h
  obtain ⟨⟨⟩, d₂, hrequire, h⟩ := does_bind_iff.mp h
  obtain ⟨⟨⟩, d₃, hdeclare, h⟩ := does_bind_iff.mp h
  obtain ⟨⟨⟩, d₄, hlink, h⟩ := does_bind_iff.mp h
  obtain ⟨n, d₅, hdelete, h⟩ := does_bind_iff.mp h
  obtain ⟨⟨⟩, d₆, hgoods, h⟩ := does_bind_iff.mp h
  obtain ⟨rfl, rfl⟩ := does_pure_iff.mp h
  obtain ⟨hd₁, hto₁⟩ := hresolve.evolves hd
  obtain ⟨rfl, hknown⟩ := requireCategories_does hrequire
  obtain ⟨hd₃, hto₃⟩ := hdeclare.evolves hd₁
  obtain ⟨hd₄, hto₄⟩ := hlink.evolves hd₃
  obtain ⟨hd₅, hto₅⟩ := hdelete.evolves hd₄
  obtain ⟨-, hto₆⟩ := hgoods.evolves hd₅
  obtain ⟨t, rfl, ht⟩ := declareCategories_does hdeclare
  obtain ⟨t', rfl, ht'⟩ := linkCategories_does hlink
  obtain ⟨-, rfl⟩ := Draft.deleteListings_ok (onDraft_of_does hdelete)
  exact ⟨shop, _, t',
    { before := hd
      after := he
      evolves := hevolves
      resolved := resolved_of_does hd hresolve
      known := hknown
      linked := ht.trans ht'
      counters := ((hto₁.trans hto₃).trans hto₄).counters
      keeps := (hto₅.trans hto₆).shops
      added := insertGoods_does hd₅ hgoods }, rfl⟩

namespace Parts

variable {shop : Shop} {created : Bool} {d₁ : Draft} {t : Table CategoryId CategoryRow}

/-- The listings are those of other shops, and behind them the new ones. -/
theorem entries_eq (h : Parts list user shop created d d₁ t e) :
    ∃ new : List (ListingId × ListingData),
      e.catalog.listings.entries =
        (d.catalog.listings.entries.filter fun x => x.2.shop != shop.id) ++ new ∧
        (∀ x ∈ new, d.counters.listing < x.1.value ∧ x.2.shop = shop.id) ∧
          new.map (fun x => e.catalog.offer? x.1 x.2) = list.goods.map fun g => some g.offer := by
  obtain ⟨new, hentries, hnew, hoffers⟩ := h.added.listings
  refine ⟨new, ?_, fun x hx => ⟨?_, (hnew x hx).2⟩, hoffers⟩
  · rw [hentries, ← h.resolved.listings]
    rfl
  · exact Int.lt_of_le_of_lt h.counters.listing (hnew x hx).1

/-- A listing of another shop was there before. -/
theorem old_listing (h : Parts list user shop created d d₁ t e) {id : ListingId} {l : ListingData}
    (hl : e.catalog.listings.get? id = some l) (hshop : l.shop ≠ shop.id) :
    d.catalog.listings.get? id = some l := by
  obtain ⟨new, hentries, hnew, -⟩ := h.entries_eq
  rw [← Table.mem_entries_iff, hentries, List.mem_append] at hl
  rcases hl with hl | hl
  · exact Table.mem_entries_iff.mp (List.mem_filter.mp hl).1
  · exact absurd (hnew _ hl).2 hshop

/-- A listing of another shop is still there. -/
theorem kept_listing (h : Parts list user shop created d d₁ t e) {id : ListingId} {l : ListingData}
    (hl : d.catalog.listings.get? id = some l) (hshop : l.shop ≠ shop.id) :
    e.catalog.listings.get? id = some l := by
  obtain ⟨new, hentries, -, -⟩ := h.entries_eq
  rw [← Table.mem_entries_iff, hentries, List.mem_append, List.mem_filter]
  exact Or.inl ⟨Table.mem_entries_iff.mpr hl, by simpa using hshop⟩

/-- It still has its parameters. -/
theorem kept_values (h : Parts list user shop created d d₁ t e) {id : ListingId} {l : ListingData}
    (hl : d.catalog.listings.get? id = some l) (hshop : l.shop ≠ shop.id) :
    e.catalog.valuesOf id = d.catalog.valuesOf id := by
  have hgiven := (h.before.listings id l hl).1
  have hl₁ : (linkedDraft d₁ t).catalog.listings.get? id = some l := by
    rw [← hl, ← h.resolved.listings]
    rfl
  rw [h.added.values id (Int.le_trans hgiven h.counters.listing),
    Draft.valuesOf_dropListings hl₁ hshop, ← h.resolved.values id]
  rfl

/-- It still looks the same. -/
theorem kept_view (h : Parts list user shop created d d₁ t e) {id : ListingId} {l : ListingData}
    (hl : d.catalog.listings.get? id = some l) (hshop : l.shop ≠ shop.id) :
    e.catalog.view? id l = d.catalog.view? id l := by
  obtain ⟨-, hproduct, hshops, -⟩ := h.before.listings id l hl
  obtain ⟨p, hp⟩ := Table.contains_iff.mp hproduct
  obtain ⟨s, hs⟩ := Table.contains_iff.mp hshops
  obtain ⟨k, hk⟩ := Table.contains_iff.mp (h.before.products _ p hp).2.2
  obtain ⟨links, hk'⟩ := h.evolves.categories _ k hk
  rw [Catalog.view?_eq hp hk hs, Catalog.view?_eq (h.evolves.products _ p hp) hk'
    (h.evolves.shops _ s hs), Catalog.parametersOf_eq, Catalog.parametersOf_eq,
    h.kept_values hl hshop]

/-- Visitors see the same listings of other shops as before. -/
theorem others (h : Parts list user shop created d d₁ t e) (id : ListingId) (v : ListingView)
    (hv : v.shop.id ≠ shop.id) :
    e.catalog.listing? id = some v ↔ d.catalog.listing? id = some v := by
  simp only [Catalog.listing?, Option.bind_eq_some_iff]
  constructor
  · rintro ⟨l, hl, hview⟩
    have hshop : l.shop ≠ shop.id := by rwa [← (h.after.view_eq hl hview).2]
    have hold := h.old_listing hl hshop
    exact ⟨l, hold, by rw [← h.kept_view hold hshop, hview]⟩
  · rintro ⟨l, hl, hview⟩
    have hshop : l.shop ≠ shop.id := by rwa [← (h.before.view_eq hl hview).2]
    exact ⟨l, h.kept_listing hl hshop, by rw [h.kept_view hl hshop, hview]⟩

/-- In ascending order of their identifiers the shop's listings offer the goods. -/
theorem listings (h : Parts list user shop created d d₁ t e) :
    ∃ ids : List ListingId,
      ids.Pairwise (fun a b => a.value < b.value) ∧
        (∀ id, id ∈ ids ↔ ∃ l, e.catalog.listings.get? id = some l ∧ l.shop = shop.id) ∧
          (∀ id ∈ ids, d.catalog.listings.get? id = none) ∧
            ids.map (fun id => (e.catalog.listing? id).map ListingView.offer) =
              list.goods.map fun g => some g.offer := by
  obtain ⟨new, hentries, hnew, hoffers⟩ := h.entries_eq
  have hrow : ∀ x ∈ new, e.catalog.listings.get? x.1 = some x.2 := by
    intro x hx
    rw [← Table.mem_entries_iff, hentries]
    exact List.mem_append_right _ hx
  refine ⟨new.map Prod.fst, ?_, ?_, ?_, ?_⟩
  · have hascending := h.after.ascending
    rw [hentries, List.pairwise_append] at hascending
    exact List.pairwise_map.mpr hascending.2.1
  · intro id
    rw [List.mem_map]
    constructor
    · rintro ⟨x, hx, rfl⟩
      exact ⟨x.2, hrow x hx, (hnew x hx).2⟩
    · rintro ⟨l, hl, hshop⟩
      rw [← Table.mem_entries_iff, hentries, List.mem_append, List.mem_filter] at hl
      rcases hl with ⟨-, hother⟩ | hl
      · simp [hshop] at hother
      · exact ⟨(id, l), hl, rfl⟩
  · intro id hid
    obtain ⟨x, hx, rfl⟩ := List.mem_map.mp hid
    refine Option.eq_none_iff_forall_ne_some.mpr fun l hl => ?_
    have hgiven := (h.before.listings x.1 l hl).1
    have hlater := (hnew x hx).1
    omega
  · rw [List.map_map, ← hoffers]
    refine List.map_congr_left fun x hx => ?_
    obtain ⟨v, hv, -⟩ := h.after.exists_view (hrow x hx)
    simp only [Function.comp_apply, Catalog.listing?, hrow x hx, Option.bind_some, hv,
      Option.map_some, Catalog.offer_of_view hv]

theorem catalog_categories (h : Parts list user shop created d d₁ t e) :
    e.catalog.categories = t :=
  h.added.categories

/-- Categories keep their links, and the shop is linked to those of the list and to no other. -/
theorem links (h : Parts list user shop created d d₁ t e) (id : CategoryId) (other : ShopId) :
    e.catalog.Links id other ↔
      d.catalog.Links id other ∨ (other = shop.id ∧ (list.Declares id ∨ list.Mentions id)) := by
  have hids : id ∈ list.categories.map DeclaredCategory.id ++ list.undeclared ↔
      list.Declares id ∨ list.Mentions id := by
    rw [List.mem_append, PriceList.mem_undeclared]
    by_cases hid : list.Declares id
    · exact iff_of_true (Or.inl hid) (Or.inl hid)
    · exact or_congr_right (and_iff_left hid)
  rw [Catalog.Links, h.catalog_categories, h.linked.links, h.resolved.categories, hids,
    Catalog.Links]

/-- Declared categories are there, and no others but those of before. -/
theorem categories (h : Parts list user shop created d d₁ t e) (id : CategoryId) :
    e.catalog.categories.contains id = true ↔
      d.catalog.categories.contains id = true ∨ list.Declares id := by
  rw [h.catalog_categories]
  constructor
  · intro hid
    rcases h.linked.added id hid with hold | hnamed
    · exact Or.inl (h.resolved.categories ▸ hold)
    · rcases List.mem_append.mp hnamed with hdeclared | hundeclared
      · exact Or.inr hdeclared
      · exact Or.inl (h.resolved.categories ▸ h.known id hundeclared)
  · rintro (hold | hdeclared)
    · obtain ⟨row, hrow⟩ := Table.contains_iff.mp hold
      rw [← h.resolved.categories] at hrow
      obtain ⟨row', hrow', -⟩ := h.linked.names id row hrow
      exact Table.contains_of_get? hrow'
    · obtain ⟨row, hrow, -⟩ := (h.linked.links id shop.id).mpr
        (Or.inr ⟨rfl, List.mem_append_left _ hdeclared⟩)
      exact Table.contains_of_get? hrow

theorem effect (h : Parts list user shop created d d₁ t e) :
    Effect list user shop.id d.catalog e.catalog where
  owned := by
    refine ⟨shop, h.keeps _ _ h.resolved.there, rfl, h.resolved.named, h.resolved.owned, ?_⟩
    exact fun hnew => h.resolved.opened (h.resolved.isNew.mpr hnew)
  shops := by
    refine ⟨h.evolves.shops, fun id hid => h.resolved.shops id ?_⟩
    rw [h.added.shops] at hid
    exact hid
  listings := h.listings
  others := h.others
  names := by
    intro id row hrow
    obtain ⟨links, hlinks⟩ := h.evolves.categories id row hrow
    exact ⟨_, hlinks, rfl⟩
  links := h.links
  categories := h.categories

end Parts

/-! ## Order items -/

/-- The listing is one of the shop's. -/
def isOfShop (c : Catalog) (shop : ShopId) (listing : ListingId) : Bool :=
  (c.listings.get? listing).any fun l => l.shop == shop

/-- Of the listings of before, those of the shop are gone, and the others are there. -/
theorem Effect.contains_eq {c c' : Catalog} {n : CatalogCounters} {shop : ShopId}
    (h : Effect list user shop c c') (hc : c.Coherent n) {m : CatalogCounters} (hc' : c'.Coherent m)
    {id : ListingId} (hid : c.listings.contains id = true) :
    c'.listings.contains id = !isOfShop c shop id := by
  obtain ⟨l, hl⟩ := Table.contains_iff.mp hid
  obtain ⟨v, hlisting, hshop⟩ := hc.exists_listing hl
  obtain ⟨ids, -, hids, hnew, -⟩ := h.listings
  simp only [isOfShop, hl, Option.any_some]
  by_cases hown : l.shop = shop
  · rw [beq_iff_eq.mpr hown, Bool.not_true, Table.contains_eq_false_iff]
    refine Option.eq_none_iff_forall_ne_some.mpr fun l' hl' => ?_
    by_cases hown' : l'.shop = shop
    · have hfresh := hnew id ((hids id).mpr ⟨l', hl', hown'⟩)
      rw [hl] at hfresh
      cases hfresh
    · obtain ⟨v', hlisting', hshop'⟩ := hc'.exists_listing hl'
      have hother : v'.shop.id ≠ shop := by rwa [hshop']
      rw [h.others id v' hother, hlisting] at hlisting'
      cases hlisting'
      exact hother (hshop.trans hown)
  · rw [beq_false_of_ne hown, Bool.not_false]
    have hother : v.shop.id ≠ shop := by rwa [hshop]
    obtain ⟨l', hl', -⟩ := Option.bind_eq_some_iff.mp ((h.others id v hother).mpr hlisting)
    exact Table.contains_of_get? hl'

/-- What an import that has gone well has done, whatever has happened before it in a pool: the
catalog is as `Effect` says, and of all order items just those have disappeared that stood for a
listing that the shop had before. -/
theorem effect_of_ok {admitted : Program Unit → Prop} {P : Pool} (hP : P.Reachable admitted)
    {w : World} (h : (apply list user).run.run World.handle P.world = some (.ok summary, w)) :
    Effect list user summary.shop P.world.store.catalog w.store.catalog ∧
      (summary.shopCreated = true ↔ P.world.store.catalog.shops.get? summary.shop = none) ∧
        w.store.book = { P.world.store.book with
          items := P.world.store.book.items.filter fun _ i =>
            !isOfShop P.world.store.catalog summary.shop i.listing } ∧
          w = { P.world with store := { P.world.store with
            catalog := w.store.catalog, counters := w.store.counters, book := w.store.book } } := by
  obtain ⟨hdraft, e, hprepare, rfl⟩ := (run_apply list user).mp h
  have hsound := hP.store.sound.catalog
  have hd : Draft.Coherent ⟨P.world.store.catalog, P.world.store.counters⟩ := hsound
  obtain ⟨shop, d₁, t, hparts, hshop⟩ := prepare_does hd hprepare
  rw [hshop]
  refine ⟨hparts.effect, hparts.resolved.isNew, ?_, ?_⟩
  · have hlisted := hP.book
    have hitems : P.world.store.book.items.filter (fun _ i =>
        e.catalog.listings.contains i.listing) = P.world.store.book.items.filter fun _ i =>
          !isOfShop P.world.store.catalog shop.id i.listing := by
      refine Table.filter_congr fun k i hi => ?_
      obtain ⟨-, -, -, hthere⟩ := hlisted.items k i hi
      exact hparts.effect.contains_eq hsound hparts.after
        (hthere (hP.orderly.quiet hdraft))
    simp only [Store.commit, Store.discard, Store.cascade, Store.publish, Store.withDraft,
      OrderBook.dropUnlisted, hitems]
  · simp only [Store.commit, Store.discard, Store.cascade, Store.publish, Store.withDraft]
    rw [← hdraft]

/-- A price list of one phone. -/
def phoneList (shop : String) : PriceList :=
  ⟨shop, [⟨⟨224⟩, "Phones"⟩],
    [⟨4216292, ⟨224⟩, "Phone", "x", 110, 116, 14, [("Colour", "gold")]⟩]⟩

/-- Two shops import a phone each, and a buyer puts both into the basket. -/
def phoneSale : List (Program Unit) :=
  [(apply (phoneList "Svyaznoy") ⟨1⟩).run.bind fun _ => .done (),
    (apply (phoneList "Euroset") ⟨2⟩).run.bind fun _ => .done (),
    (Orders.add ⟨7⟩ [⟨some (.int 1), some (.int 3)⟩, ⟨some (.int 2), some (.int 1)⟩]).run.bind
      fun _ => .done ()]

/-- A later price list of the first shop. -/
def laterList : PriceList :=
  ⟨"Svyaznoy", [],
    [⟨4216313, ⟨224⟩, " Tablet ", "y", 300, 310, 9, [("Screen", "10"), ("Colour", "grey")]⟩,
      ⟨4216292, ⟨224⟩, "Phone", "x", 105, 111, 12, []⟩]⟩

/-- When the first shop imports again, just its item leaves the basket. -/
theorem effect_of_laterList : ∃ (P : Pool) (summary : ImportSummary) (w : World),
    P.Reachable (fun _ => True) ∧
      (apply laterList ⟨1⟩).run.run World.handle P.world = some (.ok summary, w) ∧
        Effect laterList ⟨1⟩ summary.shop P.world.store.catalog w.store.catalog ∧
          summary.shopCreated = false ∧ P.world.store.book.items.size = 2 ∧
            w.store.book.items.size = 1 := by
  have hplay : (Pool.play (List.replicate 13 0 ++ List.replicate 13 1 ++ List.replicate 7 2)
      ⟨.start ⟨0, 0⟩ 3, phoneSale.map .start⟩).any (fun P =>
        ((apply laterList ⟨1⟩).run.run World.handle P.world).any fun r =>
          r.1.toOption.any (fun summary => !summary.shopCreated) &&
            P.world.store.book.items.size == 2 && r.2.store.book.items.size == 1) = true := by
    decide +kernel
  obtain ⟨P, hP, hfacts⟩ := (Option.any_eq_true _ _).mp hplay
  obtain ⟨⟨r, w⟩, hrun, hfacts⟩ := (Option.any_eq_true _ _).mp hfacts
  simp only [Bool.and_eq_true, beq_iff_eq] at hfacts
  obtain ⟨⟨hanswer, hbefore⟩, hafter⟩ := hfacts
  obtain ⟨summary, hsummary, hnot⟩ := (Option.any_eq_true _ _).mp hanswer
  cases r with
  | error f => cases hsummary
  | ok a =>
    have ha : a = summary := Option.some.inj hsummary
    subst ha
    have hreach := (Pool.Reachable.begin ⟨0, 0⟩ 3 (fun p _ => trivial)).play hP
    exact ⟨P, a, w, hreach, hrun, (effect_of_ok hreach hrun).1, by simpa using hnot, hbefore,
      hafter⟩

end Importer

end Marketplace
