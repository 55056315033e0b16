import Mathlib.Data.List.Nodup
import Mathlib.Data.String.Basic
import Marketplace.Proofs.Page
import Marketplace.Proofs.Sorting
import Marketplace.Proofs.Storage.Reachable
import Marketplace.Program.World
import Marketplace.Service.Search
set_option autoImplicit false

/-!
# Reading the catalog page by page

Whoever reads page after page, of whatever size, sees every listing that the filter accepts, every
category, or every shop that accepts orders, each once and in sequence.
-/

namespace Marketplace

namespace Catalog

variable {c : Catalog} {n : CatalogCounters}

/-! ## What there is to be read -/

theorem mem_views {v : ListingView} :
    v ∈ c.views ↔ ∃ id l, c.listings.get? id = some l ∧ c.view? id l = some v := by
  simp only [views, List.mem_filterMap, Prod.exists, Table.mem_entries_iff]

theorem id_of_view? {id : ListingId} {l : ListingData} {v : ListingView}
    (hv : c.view? id l = some v) : v.id = id := by
  simp only [view?, Option.bind_eq_some_iff, Option.map_eq_some_iff] at hv
  obtain ⟨_, -, _, -, _, -, rfl⟩ := hv
  rfl

/-- Listings are shown by identifier. -/
theorem Coherent.pairwise_views (h : c.Coherent n) :
    c.views.Pairwise fun a b => a.id.value < b.id.value := by
  refine List.Pairwise.filterMap _ (fun e e' hlt v hv v' hv' => ?_) h.ascending
  rw [id_of_view? hv, id_of_view? hv']
  exact hlt

theorem mem_allCategories {k : Category} :
    k ∈ c.allCategories ↔ c.categories.get? k.id = some ⟨k.name, k.shops⟩ := by
  rw [allCategories, List.mem_mergeSort]
  simp only [List.mem_map, Prod.exists, Table.mem_entries_iff]
  constructor
  · rintro ⟨id, row, hrow, rfl⟩
    exact hrow
  · intro hrow
    exact ⟨k.id, _, hrow, rfl⟩

/-- Categories are shown by identifier. -/
theorem pairwise_allCategories (c : Catalog) :
    c.allCategories.Pairwise fun a b => a.id.value < b.id.value := by
  have hids : ((c.categories.entries.map fun e => (⟨e.1, e.2.name, e.2.shops⟩ : Category)).map
      (·.id)).Nodup := by
    rw [List.map_map]
    exact c.categories.keys_nodup
  refine pairwise_mergeSort_strict (fun a b c hab hbc => ?_) (fun a b => ?_)
    (List.Nodup.of_map _ hids) fun a ha b hb hne hle => ?_
  · exact Id.le_trans hab hbc
  · exact Id.le_total a.id b.id
  · exact Id.lt_of_le hle fun hid => hne (List.inj_on_of_nodup_map hids ha hb hid)

theorem Coherent.mem_acceptingShops (h : c.Coherent n) {s : Shop} :
    s ∈ c.acceptingShops ↔ c.shops.get? s.id = some s ∧ s.acceptingOrders = true := by
  rw [acceptingShops, List.mem_mergeSort, List.mem_filter,
    Table.mem_values_iff_get? (h.shops.imp fun _ _ hs => hs.1)]

/-- The first shop is shown before the second one. -/
def shopBefore (a b : Shop) : Prop := a.name < b.name ∨ a.name = b.name ∧ a.id.value < b.id.value

/-- Shops are shown by name, and would be by identifier if two had one name. -/
theorem Coherent.pairwise_acceptingShops (h : c.Coherent n) :
    c.acceptingShops.Pairwise shopBefore := by
  have hids : c.shops.All fun id s => s.id = id := h.shops.imp fun _ _ hs => hs.1
  have hshops := Table.nodup_values hids
  refine pairwise_mergeSort_strict (fun a b c hab hbc => ?_) (fun a b => ?_) (hshops.filter _)
    fun a ha b hb hne hle => ?_
  · simp only [Bool.or_eq_true, Bool.and_eq_true, beq_iff_eq, decide_eq_true_eq] at hab hbc ⊢
    rcases hab with hab | ⟨hab, hid⟩
    · rcases hbc with hbc | ⟨hbc, -⟩
      · exact Or.inl (lt_trans hab hbc)
      · exact Or.inl (hbc ▸ hab)
    · rcases hbc with hbc | ⟨hbc, hid'⟩
      · exact Or.inl (hab ▸ hbc)
      · exact Or.inr ⟨hab.trans hbc, Id.le_trans hid hid'⟩
  · simp only [Bool.or_eq_true, Bool.and_eq_true, beq_iff_eq, decide_eq_true_eq]
    rcases lt_trichotomy a.name b.name with hlt | heq | hgt
    · exact Or.inl (Or.inl hlt)
    · rcases Bool.or_eq_true _ _ ▸ Id.le_total a.id b.id with hid | hid
      · exact Or.inl (Or.inr ⟨heq, hid⟩)
      · exact Or.inr (Or.inr ⟨heq.symm, hid⟩)
    · exact Or.inr (Or.inl hgt)
  · simp only [Bool.or_eq_true, Bool.and_eq_true, beq_iff_eq, decide_eq_true_eq] at hle
    refine hle.imp_right fun ⟨hname, hid⟩ => ⟨hname, Id.lt_of_le hid fun heq => hne ?_⟩
    have hsa := (Table.mem_values_iff_get? hids).mp (List.mem_filter.mp ha).1
    have hsb := (Table.mem_values_iff_get? hids).mp (List.mem_filter.mp hb).1
    rw [heq, hsb] at hsa
    exact (Option.some.inj hsa).symm

/-- The listing that is found by the identifier of a view is shown as that view. -/
theorem mem_views_iff_listing? {v : ListingView} :
    v ∈ c.views ↔ c.listing? v.id = some v := by
  rw [mem_views, listing?, Option.bind_eq_some_iff]
  constructor
  · rintro ⟨id, l, hl, hv⟩
    rw [id_of_view? hv]
    exact ⟨l, hl, hv⟩
  · rintro ⟨l, hl, hv⟩
    exact ⟨v.id, l, hl, hv⟩

end Catalog

/-! ## Reading it -/

/-- Whoever reads page after page, of a size that is asked for, is shown a list, and the world stays
as it is: the list has those entries that satisfy the condition, in sequence. -/
def World.Shows {α : Type} (w : World) (read : PageRequest → Service (Page α)) (size : Nat)
    (before : α → α → Prop) (shown : α → Prop) : Prop :=
  ∃ (all : List α) (pages : Nat → Page α),
    (∀ a, a ∈ all ↔ shown a) ∧ all.Pairwise before ∧
      Page.Series pages (PageRequest.mk 1 size).normalize.size all ∧
      ∀ p, (read ⟨p, size⟩).run.run World.handle w = some (.ok (pages p), w)

/-- A service that cuts a list for the normalized request shows the list. -/
theorem World.Shows.of_cut {α : Type} {w : World} {read : PageRequest → Service (Page α)}
    {all : List α} {before : α → α → Prop} {shown : α → Prop}
    (hread : ∀ r, (read r).run.run World.handle w = some (.ok (.cut all r.normalize), w))
    (hbefore : all.Pairwise before) (hshown : ∀ a, a ∈ all ↔ shown a) (size : Nat) :
    w.Shows read size before shown := by
  refine ⟨all, fun p => .cut all ⟨p, size⟩, hshown, hbefore, Page.series_cut all size, fun p => ?_⟩
  rw [hread, Page.cut_normalize]

/-- In every reachable store, whatever filter and page size are asked for, the pages of a search
show the listings that the filter accepts, those of the categories show all categories, both by
identifier, and those of the shops show the ones that accept orders, by name.  No listing is left
out because something that it refers to is not there, and the place of a page is a number of 64
bits. -/
theorem Store.Reachable.pages_show_all {w : World} (h : w.store.Reachable) (filter : ListingFilter)
    (size : Nat) :
    w.Shows (Search.listings filter) size (fun a b => a.id.value < b.id.value) (fun v =>
        w.store.catalog.listing? v.id = some v ∧ filter.normalize.accepts v = true) ∧
      (∀ id l, w.store.catalog.listings.get? id = some l →
        ∃ v, w.store.catalog.listing? id = some v ∧ v.id = id) ∧
      w.Shows Search.categories size (fun a b => a.id.value < b.id.value) (fun k =>
        w.store.catalog.categories.get? k.id = some ⟨k.name, k.shops⟩) ∧
      w.Shows Search.shops size Catalog.shopBefore (fun s =>
        w.store.catalog.shops.get? s.id = some s ∧ s.acceptingOrders = true) ∧
      ∀ p < 2 ^ 32, (PageRequest.mk p size).normalize.offset < 2 ^ 64 := by
  have hcatalog := h.sound.catalog
  refine ⟨?_, ?_, ?_, ?_, fun p hp => PageRequest.offset_lt hp⟩
  · refine .of_cut (fun r => rfl) (hcatalog.pairwise_views.filter _) (fun v => ?_) size
    rw [List.mem_filter, Catalog.mem_views_iff_listing?]
  · intro id l hl
    obtain ⟨v, hv, hid, -⟩ := hcatalog.exists_view hl
    exact ⟨v, by rw [Catalog.listing?, hl, Option.bind_some, hv], hid⟩
  · exact .of_cut (fun r => rfl) (Catalog.pairwise_allCategories _)
      (fun k => Catalog.mem_allCategories) size
  · exact .of_cut (fun r => rfl) hcatalog.pairwise_acceptingShops
      (fun s => hcatalog.mem_acceptingShops) size

/-- Pages of two, of the listings of one model, in a store with two shops. -/
theorem Store.Reachable.pages_show_all_phones : ∃ (w : World) (filter : ListingFilter),
    w.store.Reachable ∧ filter.model = some " Phone " ∧
      ((w.store.catalog.views.filter filter.normalize.accepts).map (·.id)) = [⟨1⟩, ⟨3⟩, ⟨4⟩] ∧
      ((w.store.catalog.shops.values.filter (·.acceptingOrders)).map (·.name)) =
        ["Svyaznoy", "Evroset"] ∧
      w.Shows (Search.listings filter) 2 (fun a b => a.id.value < b.id.value) (fun v =>
        w.store.catalog.listing? v.id = some v ∧ filter.normalize.accepts v = true) ∧
      w.Shows Search.shops 2 Catalog.shopBefore (fun s =>
        w.store.catalog.shops.get? s.id = some s ∧ s.acceptingOrders = true) := by
  have hbegun : (Store.mk .empty (some .empty) .start .empty .empty).Reachable :=
    Reachable.empty.step (.catalog (show CatalogCall.begin.step _ = some ((), _) from rfl))
  have hdone := hbegun.drafts [.createShop "Svyaznoy" ⟨1⟩, .createShop "Evroset" ⟨2⟩,
    .ensureCategory ⟨⟨224⟩, "Phones"⟩, .linkCategory ⟨224⟩ ⟨1⟩, .linkCategory ⟨224⟩ ⟨2⟩,
    .upsertProduct "Phone" ⟨224⟩, .insertListing ⟨⟨1⟩, ⟨1⟩, "phone-1", 7, 5, 100, 110⟩,
    .insertListing ⟨⟨1⟩, ⟨2⟩, "case", 8, 5, 100, 110⟩,
    .insertListing ⟨⟨1⟩, ⟨2⟩, "Phone-2", 9, 5, 100, 110⟩,
    .insertListing ⟨⟨1⟩, ⟨1⟩, "PHONE-3", 10, 5, 100, 110⟩, .commit]
  obtain ⟨hlistings, -, -, hshops, -⟩ :=
    Reachable.pages_show_all (w := { World.start ⟨0, 0⟩ 0 with store := _ }) hdone
      ⟨some " Phone ", none, none, none, none⟩ 2
  exact ⟨_, _, hdone, rfl, by decide +kernel, rfl, hlistings, hshops⟩

end Marketplace
