import Mathlib.Algebra.BigOperators.Group.List.Basic
import Mathlib.Algebra.Ring.Nat
import Mathlib.Data.List.Dedup
import Mathlib.Data.List.Nodup
import Marketplace.Proofs.Import.Effect
set_option autoImplicit false

/-!
# What an import says it has done

The summary of an import names the user's shop and says whether it is new, and it counts the
listings of the shop and their parameters as they are afterwards (`Importer.counts_of_ok`).  Its
number of categories is that of the entries in which the list declares them, and so it is the number
of categories only if none is declared twice (`Importer.exists_category_counted_twice`).
-/

namespace Marketplace

/-! ## Counting rows -/

/-- Rows that have one of some keys are those of the first key, those of the second one, and so
on. -/
theorem sum_countP_key {α κ : Type} [DecidableEq κ] {key : α → κ} {keys : List κ}
    (hnodup : keys.Nodup) (rows : List α) :
    (keys.map fun k => rows.countP fun a => key a == k).sum =
      rows.countP fun a => decide (key a ∈ keys) := by
  induction rows with
  | nil => simp
  | cons a rows ih =>
    have hhere : (keys.map fun k => if key a == k then 1 else 0).sum =
        if key a ∈ keys then 1 else 0 := by
      rw [List.sum_map_eq_nsmul_single (key a) _ fun k hk _ => by simp [hk.symm], hnodup.count]
      simp
    simp only [List.countP_cons, List.sum_map_add, ih, hhere, decide_eq_true_eq]

namespace Table

variable {κ α : Type} {t : Table κ α}

theorem size_filter (p : κ → α → Bool) :
    (t.filter p).size = t.entries.countP fun e => p e.1 e.2 :=
  List.countP_eq_length_filter.symm

/-- A table has as many rows as there are keys with a row. -/
theorem size_eq_length [DecidableEq κ] {ks : List κ} (hnodup : ks.Nodup)
    (hks : ∀ k, k ∈ ks ↔ ∃ a, t.get? k = some a) : t.size = ks.length := by
  have hperm : (t.entries.map Prod.fst).Perm ks := by
    refine (List.perm_ext_iff_of_nodup t.keys_nodup hnodup).mpr fun k => ?_
    simp only [hks, List.mem_map, Prod.exists, mem_entries_iff, exists_and_right, exists_eq_right]
  rw [← hperm.length_eq, List.length_map, size]

end Table

namespace Catalog

variable {c : Catalog} {n : CatalogCounters} {shop : ShopId}

/-- The number of the shop's listings. -/
def listingCount (c : Catalog) (shop : ShopId) : Nat :=
  (c.listings.filter fun _ l => l.shop == shop).size

/-- The number of the parameters that the shop's listings have. -/
def parameterCount (c : Catalog) (shop : ShopId) : Nat :=
  (c.listingParameters.filter fun k _ => Importer.isOfShop c shop k.1).size

/-- The number of the categories that the list declares. -/
def declaredCount (c : Catalog) (list : PriceList) : Nat :=
  (c.categories.filter fun id _ => (list.categories.map DeclaredCategory.id).contains id).size

/-- Every parameter that a listing has is one of its values. -/
theorem Coherent.length_valuesOf (h : c.Coherent n) (id : ListingId) :
    (c.valuesOf id).length = c.listingParameters.entries.countP fun e => e.1.1 == id := by
  rw [valuesOf, List.length_filterMap_eq_countP]
  refine List.countP_congr fun e he => ?_
  obtain ⟨-, hparameter⟩ := h.listingParameters e.1 e.2 (Table.mem_entries_iff.mp he)
  obtain ⟨p, hp⟩ := Table.contains_iff.mp hparameter
  by_cases hid : e.1.1 = id <;> simp [hid, hp]

section Shop

variable {ids : List ListingId}
  (hids : ∀ id, id ∈ ids ↔ ∃ l, c.listings.get? id = some l ∧ l.shop = shop)

include hids

theorem listingCount_eq (hnodup : ids.Nodup) : c.listingCount shop = ids.length := by
  refine Table.size_eq_length hnodup fun id => ?_
  simp only [hids, Table.get?_filter_eq_some_iff, beq_iff_eq]

theorem isOfShop_eq (id : ListingId) : Importer.isOfShop c shop id = decide (id ∈ ids) := by
  rw [Bool.eq_iff_iff, decide_eq_true_eq, hids, Importer.isOfShop, Option.any_eq_true]
  simp only [beq_iff_eq]

/-- The shop's listings have the parameters of the first one, of the second one, and so on. -/
theorem Coherent.parameterCount_eq (h : c.Coherent n) (hnodup : ids.Nodup) :
    c.parameterCount shop = (ids.map fun id => (c.valuesOf id).length).sum := by
  simp only [h.length_valuesOf, sum_countP_key hnodup, parameterCount, Table.size_filter,
    isOfShop_eq hids]

end Shop

/-- Of the categories that the list declares, each is counted once. -/
theorem declaredCount_eq {list : PriceList}
    (hthere : ∀ id, list.Declares id → c.categories.contains id = true) :
    c.declaredCount list = (list.categories.map DeclaredCategory.id).dedup.length := by
  refine Table.size_eq_length (List.nodup_dedup _) fun id => ?_
  simp only [List.mem_dedup, Table.get?_filter_eq_some_iff, List.contains_iff_mem,
    exists_and_right, ← Table.contains_iff]
  exact ⟨fun hid => ⟨hthere id hid, hid⟩, And.right⟩

end Catalog

/-- A list with an entry that it has had already is longer than without. -/
theorem length_dedup_eq_iff {α : Type} [DecidableEq α] {xs : List α} :
    xs.dedup.length = xs.length ↔ xs.Nodup :=
  ⟨fun h => List.dedup_eq_self.mp ((List.dedup_sublist xs).eq_of_length h),
    fun h => by rw [List.dedup_eq_self.mpr h]⟩

namespace Importer

variable {list : PriceList} {user : UserId} {summary : ImportSummary} {d e : Draft}

/-- The summary counts what the list has. -/
theorem counts_of_does (h : (prepare list user).Does d summary e) :
    summary.categories = list.categories.length ∧ summary.listings = list.goods.length ∧
      summary.parameters = (list.goods.map fun g => g.parameters.length).sum := by
  obtain ⟨⟨shop, created⟩, d₁, -, h⟩ := does_bind_iff.mp h
  obtain ⟨⟨⟩, d₂, -, h⟩ := does_bind_iff.mp h
  obtain ⟨⟨⟩, d₃, -, h⟩ := does_bind_iff.mp h
  obtain ⟨⟨⟩, d₄, -, h⟩ := does_bind_iff.mp h
  obtain ⟨m, d₅, -, h⟩ := does_bind_iff.mp h
  obtain ⟨⟨⟩, d₆, -, h⟩ := does_bind_iff.mp h
  obtain ⟨rfl, rfl⟩ := does_pure_iff.mp h
  exact ⟨rfl, rfl, by rw [List.sum_eq_foldr, List.foldr_map]⟩

namespace Effect

variable {shop : ShopId} {c c' : Catalog} {n m : CatalogCounters}

/-- The shop is the one that the user has afterwards. -/
theorem shopOf?_eq (h : Effect list user shop c c') (hc' : c'.Coherent m) :
    ∃ row, c'.shopOf? user = some row ∧ row.id = shop := by
  obtain ⟨row, hrow, hid, -, howner, -⟩ := h.owned
  exact ⟨row, hc'.shopOf?_of_get? hrow howner, hid⟩

/-- The shop is new if the user had none before. -/
theorem isNew_iff (h : Effect list user shop c c') (hc : c.Coherent n) (hc' : c'.Coherent m) :
    c.shops.get? shop = none ↔ c.shopOf? user = none := by
  obtain ⟨row, hrow, hid, -, howner, -⟩ := h.owned
  constructor
  · intro hnew
    refine Option.eq_none_iff_forall_ne_some.mpr fun s hs => ?_
    obtain ⟨hthere, hsame⟩ := hc.shopOf?_eq_some_iff.mp hs
    have hkey : s.id = shop :=
      hc'.shop_owner_injective (h.shops.1 _ _ hthere) hrow (hsame.trans howner.symm)
    rw [hkey, hnew] at hthere
    cases hthere
  · intro hnone
    refine Option.eq_none_iff_forall_ne_some.mpr fun s hs => ?_
    have hlater := h.shops.1 _ _ hs
    rw [hrow] at hlater
    cases hlater
    rw [hc.shopOf?_of_get? hs howner] at hnone
    cases hnone

/-- The shop's listings are as many as the goods, and each offers its good. -/
theorem exists_ids (h : Effect list user shop c c') : ∃ ids : List ListingId, ids.Nodup ∧
    (∀ id, id ∈ ids ↔ ∃ l, c'.listings.get? id = some l ∧ l.shop = shop) ∧
      ids.map (fun id => (c'.listing? id).map ListingView.offer) =
        list.goods.map fun g => some g.offer := by
  obtain ⟨ids, hascending, hids, -, hoffers⟩ := h.listings
  refine ⟨ids, hascending.imp fun hlt heq => ?_, hids, hoffers⟩
  rw [heq] at hlt
  exact Int.lt_irrefl _ hlt

theorem listingCount_eq (h : Effect list user shop c c') :
    c'.listingCount shop = list.goods.length := by
  obtain ⟨ids, hnodup, hids, hoffers⟩ := h.exists_ids
  have hlength := congrArg List.length hoffers
  rw [List.length_map, List.length_map] at hlength
  rw [Catalog.listingCount_eq hids hnodup, hlength]

theorem parameterCount_eq (h : Effect list user shop c c') (hc' : c'.Coherent m) :
    c'.parameterCount shop = (list.goods.map fun g => g.parameters.length).sum := by
  obtain ⟨ids, hnodup, hids, hoffers⟩ := h.exists_ids
  have hvalues : ∀ id ∈ ids, (c'.valuesOf id).length =
      ((c'.listing? id).map ListingView.offer).elim 0 fun o => o.parameters.length := by
    intro id hid
    obtain ⟨l, hl, -⟩ := (hids id).mp hid
    obtain ⟨v, hv, -⟩ := hc'.exists_view hl
    have hoffer := Catalog.offer_of_view hv
    obtain ⟨p, -, hp⟩ := Option.map_eq_some_iff.mp hoffer
    simp only [Catalog.listing?, hl, Option.bind_some, hv, Option.map_some, Option.elim_some,
      ← hp, Catalog.parametersOf_eq, List.length_mergeSort]
  have hcounts := congrArg (List.map fun o : Option Offer => o.elim 0 fun o => o.parameters.length)
    hoffers
  simp only [List.map_map, Function.comp_def, Option.elim_some, Good.offer, Good.values,
    List.length_mergeSort, List.length_map] at hcounts
  rw [hc'.parameterCount_eq hids hnodup, List.map_congr_left hvalues, hcounts]

theorem declared_there (h : Effect list user shop c c') (id : CategoryId) (hid : list.Declares id) :
    c'.categories.contains id = true :=
  (h.categories id).mpr (Or.inr hid)

end Effect

/-- What the summary of an import that has gone well says, whatever has happened before it in a
pool.  The shop is the user's, and it is new if the user had none.  The numbers of listings and of
parameters are those of the shop afterwards.  Categories are counted as often as the list declares
them. -/
theorem counts_of_ok {admitted : Program Unit → Prop} {P : Pool} (hP : P.Reachable admitted)
    {w : World} (h : (apply list user).run.run World.handle P.world = some (.ok summary, w)) :
    summary.listings = w.store.catalog.listingCount summary.shop ∧
      summary.parameters = w.store.catalog.parameterCount summary.shop ∧
        (∃ shop, w.store.catalog.shopOf? user = some shop ∧ shop.id = summary.shop) ∧
          (summary.shopCreated = true ↔ P.world.store.catalog.shopOf? user = none) ∧
            w.store.catalog.declaredCount list ≤ summary.categories ∧
              (summary.categories = w.store.catalog.declaredCount list ↔
                (list.categories.map DeclaredCategory.id).Nodup) := by
  obtain ⟨-, e, hprepare, rfl⟩ := (run_apply list user).mp h
  have hd : Draft.Coherent ⟨P.world.store.catalog, P.world.store.counters⟩ :=
    hP.store.sound.catalog
  obtain ⟨hcategories, hlistings, hparameters⟩ := counts_of_does hprepare
  obtain ⟨shop, d₁, t, hparts, hshop⟩ := prepare_does hd hprepare
  have heffect := hparts.effect
  have hdeclared := Catalog.declaredCount_eq heffect.declared_there
  have hentries : list.categories.length = (list.categories.map DeclaredCategory.id).length :=
    (List.length_map _).symm
  rw [hshop, hcategories, hlistings, hparameters, hentries]
  refine ⟨heffect.listingCount_eq.symm, (heffect.parameterCount_eq hparts.after).symm,
    heffect.shopOf?_eq hparts.after,
    hparts.resolved.isNew.trans (heffect.isNew_iff hd hparts.after), ?_, ?_⟩
  · exact hdeclared.trans_le (List.dedup_sublist _).length_le
  · refine Iff.trans ?_ length_dedup_eq_iff
    rw [← hdeclared]
    exact eq_comm

/-- The later list of the first shop, with two categories of which one is new. -/
def declaringList : PriceList :=
  { laterList with categories := [⟨⟨224⟩, "Phones"⟩, ⟨⟨225⟩, "Tablets"⟩] }

/-- It brings two listings with two parameters. -/
theorem counts_of_declaringList : ∃ (P : Pool) (summary : ImportSummary) (w : World),
    P.Reachable (fun _ => True) ∧
      (apply declaringList ⟨1⟩).run.run World.handle P.world = some (.ok summary, w) ∧
        summary = ⟨⟨1⟩, false, 2, 2, 2⟩ ∧
          summary.listings = w.store.catalog.listingCount summary.shop ∧
            summary.parameters = w.store.catalog.parameterCount summary.shop ∧
              summary.categories = w.store.catalog.declaredCount declaringList := by
  have hplay : (Pool.play (List.replicate 13 0 ++ List.replicate 13 1)
      ⟨.start ⟨0, 0⟩ 3, phoneSale.map .start⟩).any (fun P =>
        ((apply declaringList ⟨1⟩).run.run World.handle P.world).any fun r =>
          r.1.toOption.any (· == ⟨⟨1⟩, false, 2, 2, 2⟩)) = true := by
    decide +kernel
  obtain ⟨P, hP, hfacts⟩ := (Option.any_eq_true _ _).mp hplay
  obtain ⟨summary, w, hrun, hfields⟩ := Program.exists_of_any_ok hfacts
  have hreach := (Pool.Reachable.begin ⟨0, 0⟩ 3 (fun p _ => trivial)).play hP
  obtain ⟨hlistings, hparameters, -, -, -, hcategories⟩ := counts_of_ok hreach hrun
  exact ⟨P, summary, w, hreach, hrun, eq_of_beq hfields, hlistings, hparameters,
    hcategories.mpr (by decide)⟩

/-- A price list that declares its category twice. -/
def repeatedText : String :=
  "shop: Acme\ncategories: [\x7bid: 1, name: Tools\x7d, \x7bid: 1, name: Tools\x7d]\ngoods:\n" ++
    "- id: 1\n  category: 1\n  name: Hammer\n  model: H1\n  price: 100\n  price_rrc: 200\n" ++
    "  quantity: 5\n"

/-- The list is accepted and imported, and the summary counts the category twice. -/
theorem exists_category_counted_twice : ∃ (list : PriceList) (P : Pool) (summary : ImportSummary)
    (w : World), PriceList.ofText repeatedText = .ok list ∧ P.Reachable (fun _ => True) ∧
      (apply list ⟨100⟩).run.run World.handle P.world = some (.ok summary, w) ∧
        summary.categories = 2 ∧ w.store.catalog.declaredCount list = 1 := by
  have hfacts : (PriceList.ofText repeatedText).toOption.any (fun list =>
      ((apply list ⟨100⟩).run.run World.handle (.start ⟨0, 0⟩ 3)).any fun r =>
        r.1.toOption.any fun summary =>
          decide (summary.categories = 2 ∧ r.2.store.catalog.declaredCount list = 1)) = true := by
    decide +kernel
  obtain ⟨list, hlist, hfacts⟩ := (Option.any_eq_true _ _).mp hfacts
  obtain ⟨summary, w, hrun, hcounts⟩ := Program.exists_of_any_ok hfacts
  obtain ⟨hcategories, hdeclared⟩ := of_decide_eq_true hcounts
  exact ⟨list, ⟨.start ⟨0, 0⟩ 3, []⟩, summary, w, Program.eq_ok_of_toOption hlist,
    .start ⟨0, 0⟩ 3, hrun, hcategories, hdeclared⟩

end Importer

end Marketplace
