import Marketplace.Proofs.Storage.DraftCall
set_option autoImplicit false

/-!
# Reachable stores

A store is reachable if calls lead to it from the empty one: calls about the catalog and about the
draft in any order, with any arguments and any answer, the two halves of a commit, and giving a
draft up.  Order book and accounts may change in any way in between, for the catalog does not depend
on them.  The catalog of every reachable store is coherent, and so is its draft.

The rules of `Store.Step` are wider than what any program does: nothing says who calls, or that the
halves of a commit belong together.  What is proved of reachable stores therefore needs no knowledge
of the programs, and a pool of any programs has a reachable store.
-/

namespace Marketplace

/-- A call about the catalog opens a draft, opens or closes a shop for orders, or only reads. -/
theorem CatalogCall.step_cases {s t : Store} {c : CatalogCall} {r : c.Result}
    (h : c.step s = some (r, t)) :
    (c = .begin ∧ s.draft = none ∧ t = { s with draft := some s.catalog }) ∨
      (∃ shop accepting, c = .setAccepting shop accepting ∧ s.draft = none ∧
        t = { s with catalog := { s.catalog with shops := s.catalog.shops.modify shop fun row =>
          { row with acceptingOrders := accepting } } }) ∨ (c ≠ .begin ∧ t = s) := by
  cases c with
  | begin =>
    simp only [CatalogCall.step, Store.begin?] at h
    split at h
    · cases h
    · rename_i hdraft
      cases h
      exact Or.inl ⟨rfl, hdraft, rfl⟩
  | setAccepting shop accepting =>
    simp only [CatalogCall.step, Store.setAccepting?] at h
    split at h
    · cases h
    · rename_i hdraft
      cases h
      exact Or.inr (Or.inl ⟨shop, accepting, rfl, hdraft, rfl⟩)
  | shopByOwner _ => cases h; exact Or.inr (Or.inr ⟨by simp, rfl⟩)
  | shop _ => cases h; exact Or.inr (Or.inr ⟨by simp, rfl⟩)
  | listing _ => cases h; exact Or.inr (Or.inr ⟨by simp, rfl⟩)
  | listings _ _ => cases h; exact Or.inr (Or.inr ⟨by simp, rfl⟩)
  | categories _ => cases h; exact Or.inr (Or.inr ⟨by simp, rfl⟩)
  | acceptingShops _ => cases h; exact Or.inr (Or.inr ⟨by simp, rfl⟩)

namespace Store

/-- The catalog is one of the store's, the published one or the draft. -/
def Has (s : Store) (c : Catalog) : Prop := c = s.catalog ∨ s.draft = some c

/-- One thing that happens to a store. -/
inductive Step (s : Store) : Store → Prop
  | catalog {c : CatalogCall} {r : c.Result} {t : Store} (h : c.step s = some (r, t)) : Step s t
  | draft (c : DraftCall) : Step s (c.step s).2
  /-- The first half of a commit; the second one gives the draft up. -/
  | publish : Step s s.publish
  | discard : Step s s.discard
  | beside (book : OrderBook) (accounts : Table UserId Account) :
    Step s { s with book := book, accounts := accounts }

/-- The stores that steps lead to from the empty one. -/
inductive Reachable : Store → Prop
  | empty : Reachable Store.empty
  | step {s t : Store} (h : Reachable s) (hst : s.Step t) : Reachable t

/-- The tables of both catalogs fit together, and the draft comes from the published catalog. -/
structure Sound (s : Store) : Prop where
  coherent : ∀ c, s.Has c → c.Coherent s.counters
  draft : ∀ c, s.draft = some c →
    ∃ n, s.catalog.Coherent n ∧ Draft.Evolves ⟨s.catalog, n⟩ ⟨c, s.counters⟩

namespace Sound

variable {s t : Store}

/-- An empty store has no rows that could fail to fit. -/
theorem empty : Store.empty.Sound where
  coherent := by
    rintro c (rfl | hc)
    · exact .empty _
    · cases hc
  draft := by
    intro c hc
    cases hc

/-- The published catalog is one of the catalogs of the store. -/
theorem catalog (h : s.Sound) : s.catalog.Coherent s.counters := h.coherent _ (Or.inl rfl)

/-- A catalog and a draft of it that has just been opened are sound. -/
theorem of_copy {c : Catalog} (hc : t.catalog = c) (hd : t.draft = none ∨ t.draft = some c)
    (h : c.Coherent t.counters) : t.Sound where
  coherent := by
    rintro c' (rfl | hc')
    · rwa [hc]
    · rcases hd with hd | hd <;> rw [hd] at hc' <;> cases hc'
      exact h
  draft := by
    intro c' hc'
    rcases hd with hd | hd <;> rw [hd] at hc' <;> cases hc'
    exact ⟨t.counters, hc ▸ h, hc ▸ .refl _⟩

/-- A call about the draft changes nothing, commits, or takes the draft further. -/
theorem draft_step_cases (h : s.Sound) (c : DraftCall) :
    (c.step s).2 = s ∨ (c.step s).2 = s.commit ∨
      ∃ d e, s = s.withDraft d ∧ d.Coherent ∧ (c.step s).2 = s.withDraft e ∧ e.Coherent ∧
        d.Evolves e := by
  by_cases hc : c = .commit
  · subst hc
    cases hdraft : s.draft with
    | none => exact Or.inl (DraftCall.step_of_no_draft hdraft _)
    | some cat => exact Or.inr (Or.inl (by simp [DraftCall.step, hdraft]))
  · rcases DraftCall.step_cases s hc with hsame | ⟨d, e, a, hs, he, hstep⟩
    · exact Or.inl hsame
    · have hd : d.Coherent := by
        rw [hs] at h
        exact h.coherent d.catalog (Or.inr rfl)
      obtain ⟨hcoherent, hevolves⟩ := DraftCall.onDraft_ok hd he
      exact Or.inr (Or.inr ⟨d, e, hs, hd, hstep, hcoherent, hevolves⟩)

theorem setAccepting (h : s.Sound) (hd : s.draft = none) (shop : ShopId) (accepting : Bool) :
    Sound { s with catalog := { s.catalog with
      shops := s.catalog.shops.modify shop fun row =>
        { row with acceptingOrders := accepting } } } := by
  refine of_copy rfl (Or.inl hd) ?_
  exact
    { h.catalog with
      shops := h.catalog.shops.modify fun _ hs => hs
      shopNames := h.catalog.shopNames.modify fun _ => rfl
      shopOwners := h.catalog.shopOwners.modify fun _ => rfl
      categories := h.catalog.categories.imp fun _ _ hrow other hother => by
        rw [Table.contains_modify]
        exact hrow other hother
      listings := h.catalog.listings.imp fun _ _ hl =>
        ⟨hl.1, hl.2.1, by rw [Table.contains_modify]; exact hl.2.2.1, hl.2.2.2⟩ }

/-- Work on the draft keeps a store sound. -/
theorem withDraft {d e : Draft} (h : (s.withDraft d).Sound) (hevolves : d.Evolves e)
    (he : e.Coherent) : (s.withDraft e).Sound where
  coherent := by
    rintro c (rfl | hc)
    · exact (h.coherent _ (Or.inl rfl)).mono hevolves.counters
    · cases hc
      exact he
  draft := by
    intro c hc
    cases hc
    obtain ⟨n, hn, hfrom⟩ := h.draft _ rfl
    exact ⟨n, hn, hfrom.trans hevolves⟩

/-- Publishing makes the draft the catalog, and what was known of the draft is known of the
catalog. -/
theorem publish (h : s.Sound) : s.publish.Sound := by
  unfold Store.publish
  split
  · exact h
  · rename_i c hc
    exact of_copy rfl (Or.inr hc) (h.coherent c (Or.inr hc))

theorem discard (h : s.Sound) : s.discard.Sound := of_copy rfl (Or.inl rfl) h.catalog

/-- Order book and accounts do not matter. -/
theorem beside (h : s.Sound) (book : OrderBook) (accounts : Table UserId Account) :
    Sound { s with book := book, accounts := accounts } :=
  ⟨h.coherent, h.draft⟩

/-- Whatever happens keeps the store sound; the cases are the rules of the step. -/
theorem step (h : s.Sound) (hst : s.Step t) : t.Sound := by
  cases hst with
  | catalog hc =>
    rcases CatalogCall.step_cases hc with ⟨-, -, rfl⟩ | ⟨shop, accepting, -, hd, rfl⟩ | ⟨-, rfl⟩
    · exact of_copy rfl (Or.inr rfl) h.catalog
    · exact h.setAccepting hd shop accepting
    · exact h
  | draft c =>
    rcases h.draft_step_cases c with hc | hc | ⟨d, e, hs, -, hc, he, hevolves⟩ <;> rw [hc]
    · exact h
    · exact (h.publish.beside _ _).discard
    · rw [hs] at h
      exact h.withDraft hevolves he
  | publish => exact h.publish
  | discard => exact h.discard
  | beside book accounts => exact h.beside book accounts

end Sound

/-- What one thing that happens does to the catalogs and the counters of a store. -/
inductive Moves (s t : Store) : Prop
  /-- A draft is opened or given up, or nothing happens to the catalogs. -/
  | keep (hcatalog : t.catalog = s.catalog) (hcounters : t.counters = s.counters)
      (hdraft : ∀ c, t.draft = some c → s.draft = some c ∨ c = s.catalog)
  | accept {shop : ShopId} {accepting : Bool} (hnone : s.draft = none)
      (ht : t = { s with catalog := { s.catalog with shops := s.catalog.shops.modify shop fun row =>
        { row with acceptingOrders := accepting } } })
  | edit {d e : Draft} (hs : s = s.withDraft d) (ht : t = s.withDraft e) (hevolves : d.Evolves e)
  | publish {c : Catalog} (hs : s.draft = some c) (hcatalog : t.catalog = c)
      (hcounters : t.counters = s.counters) (hdraft : ∀ d, t.draft = some d → d = c)

theorem Moves.refl (s : Store) : s.Moves s := .keep rfl rfl fun _ hc => Or.inl hc

theorem Moves.of_publish (s : Store) : s.Moves s.publish := by
  unfold Store.publish
  split
  · exact .refl s
  · rename_i c hc
    refine .publish hc rfl rfl fun d hd => ?_
    rw [hc] at hd
    exact (Option.some.inj hd).symm

theorem Moves.of_commit (s : Store) : s.Moves s.commit := by
  unfold Store.commit Store.publish
  split
  · exact .keep rfl rfl nofun
  · rename_i c hc
    exact .publish hc rfl rfl nofun

/-- Every thing that happens moves the catalogs in one of these ways. -/
theorem Sound.moves {s t : Store} (h : s.Sound) (hst : s.Step t) : s.Moves t := by
  cases hst with
  | catalog hc =>
    rcases CatalogCall.step_cases hc with ⟨-, -, rfl⟩ | ⟨shop, accepting, -, hd, rfl⟩ | ⟨-, rfl⟩
    · exact .keep rfl rfl fun c hc => Or.inr (Option.some.inj hc).symm
    · exact .accept hd rfl
    · exact .refl _
  | draft c =>
    rcases h.draft_step_cases c with hc | hc | ⟨d, e, hs, -, hc, -, hevolves⟩ <;> rw [hc]
    · exact .refl s
    · exact .of_commit s
    · exact .edit hs rfl hevolves
  | publish => exact .of_publish s
  | discard => exact .keep rfl rfl nofun
  | beside book accounts => exact .keep rfl rfl fun _ hc => Or.inl hc

/-- Every reachable store is sound. -/
theorem Reachable.sound {s : Store} (h : s.Reachable) : s.Sound := by
  induction h with
  | empty => exact .empty
  | step _ hst ih => exact ih.step hst

/-- In every reachable store the published catalog and the draft fit together: indexes are those of
their rows, no two shops share a name or an owner, references lead to rows, amounts are not
negative, and identifiers are not ahead of their counters.  So a visitor sees every listing. -/
theorem Reachable.catalogs_fit {s : Store} (h : s.Reachable) {c : Catalog} (hc : s.Has c) :
    c.Coherent s.counters ∧
      (∀ id id' a b, c.shops.get? id = some a → c.shops.get? id' = some b →
        a.name = b.name ∨ a.owner = b.owner → id = id') ∧
      ∀ id l, c.listings.get? id = some l → (c.view? id l).isSome = true := by
  have hcoherent := h.sound.coherent c hc
  refine ⟨hcoherent, ?_, ?_⟩
  · rintro id id' a b ha hb (hname | howner)
    · exact hcoherent.shop_name_injective ha hb hname
    · exact hcoherent.shop_owner_injective ha hb howner
  · intro id l hl
    obtain ⟨v, hv, -⟩ := hcoherent.exists_view hl
    exact Option.isSome_iff_exists.mpr ⟨v, hv⟩

/-- Calls about the draft, one after the other, lead from a reachable store to a reachable one. -/
theorem Reachable.drafts {s : Store} (h : s.Reachable) (cs : List DraftCall) :
    (cs.foldl (fun t c => (c.step t).2) s).Reachable := by
  induction cs generalizing s with
  | nil => exact h
  | cons c cs ih => exact ih (h.step (.draft c))

/-- The fit of a store in which two shops have tried to take one name and a listing has been
added. -/
theorem Reachable.catalogs_fit_of_listing : ∃ (s : Store) (id : ListingId) (l : ListingData),
    s.Reachable ∧ s.draft = none ∧ s.catalog.shops.size = 1 ∧
      s.catalog.listingParameters.size = 1 ∧ s.catalog.listings.get? id = some l ∧
      s.catalog.Coherent s.counters ∧ (s.catalog.view? id l).isSome = true := by
  have hbegun : (Store.mk .empty (some .empty) .start .empty .empty).Reachable :=
    Reachable.empty.step (.catalog (show CatalogCall.begin.step _ = some ((), _) from rfl))
  have hdone := hbegun.drafts [.createShop "Svyaznoy" ⟨1⟩, .createShop "Svyaznoy" ⟨2⟩,
    .ensureCategory ⟨⟨224⟩, "Phones"⟩, .linkCategory ⟨224⟩ ⟨1⟩, .upsertProduct "Phone" ⟨224⟩,
    .insertListing ⟨⟨1⟩, ⟨1⟩, "x", 7, 5, 100, 110⟩, .upsertParameter "Colour",
    .insertParameter ⟨1⟩ ⟨1⟩ "red", .commit]
  have hlisting : _ = some (ListingData.mk ⟨1⟩ ⟨1⟩ "x" 7 5 100 110) := rfl
  obtain ⟨hcoherent, -, hview⟩ := hdone.catalogs_fit (Or.inl rfl)
  exact ⟨_, ⟨1⟩, _, hdone, rfl, rfl, rfl, hlisting, hcoherent, hview _ _ hlisting⟩

end Store

end Marketplace
