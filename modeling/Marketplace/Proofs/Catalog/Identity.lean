import Marketplace.Proofs.Order.Lifecycle
set_option autoImplicit false

/-!
# Rows keep their identity

An identifier that has been given to a row is not given to another one, whatever imports begin, are
committed or given up.  Shops, categories, products and parameters stay for ever under theirs, and a
listing stays as it is until it is replaced, and then its identifier leads nowhere.

What lasts is stated against a catalog that is held fixed: `Catalog.Lasts` for the rows that stay,
`Store.Binds` for what a listing may still be.  Both are kept by every step of the store, on the
published catalog and on the draft alike, and so hold at any later time.
-/

namespace Marketplace

/-! ## Rows that stay -/

/-- Shops, categories, products and parameters of the first catalog are those of the second one, but
for shops that have been opened or closed and for the links of categories. -/
structure Catalog.Lasts (c d : Catalog) : Prop where
  shops : ∀ id s, c.shops.get? id = some s →
    ∃ accepting, d.shops.get? id = some { s with acceptingOrders := accepting }
  categories : ∀ id row, c.categories.get? id = some row →
    ∃ links, d.categories.get? id = some ⟨row.name, links⟩
  products : c.products.Keeps d.products
  parameters : c.parameters.Keeps d.parameters

namespace Catalog.Lasts

variable {c d e : Catalog}

theorem refl (c : Catalog) : c.Lasts c where
  shops := fun _ s hs => ⟨s.acceptingOrders, hs⟩
  categories := fun _ row hrow => ⟨row.shops, hrow⟩
  products := .refl _
  parameters := .refl _

/-- A draft that goes on keeps its rows, so it keeps those of any catalog before. -/
theorem evolves {x y : Draft} (h : c.Lasts x.catalog) (hxy : x.Evolves y) : c.Lasts y.catalog where
  shops := by
    intro id s hs
    obtain ⟨accepting, hx⟩ := h.shops id s hs
    exact ⟨accepting, hxy.shops _ _ hx⟩
  categories := by
    intro id row hrow
    obtain ⟨links, hx⟩ := h.categories id row hrow
    obtain ⟨links', hy⟩ := hxy.categories _ _ hx
    exact ⟨links', hy⟩
  products := h.products.trans hxy.products
  parameters := h.parameters.trans hxy.parameters

theorem accept (h : c.Lasts d) (shop : ShopId) (accepting : Bool) :
    c.Lasts { d with shops := d.shops.modify shop fun row =>
      { row with acceptingOrders := accepting } } :=
  { h with
    shops := by
      intro id s hs
      obtain ⟨before, hd⟩ := h.shops id s hs
      rw [Table.get?_modify]
      split
      · exact ⟨accepting, by rw [hd]; rfl⟩
      · exact ⟨before, hd⟩ }

/-- A name is that of one shop for ever.  Whether it accepts orders may change. -/
theorem shopNamed (h : c.Lasts d) {n m : CatalogCounters} (hc : c.Coherent n) (hd : d.Coherent m)
    {name : String} {s : Shop} (hs : c.shopNamed? name = some s) :
    ∃ accepting, d.shopNamed? name = some { s with acceptingOrders := accepting } := by
  obtain ⟨hrow, hname⟩ := hc.shopNamed?_eq_some_iff.mp hs
  obtain ⟨accepting, hlater⟩ := h.shops _ _ hrow
  exact ⟨accepting, hd.shopNamed?_eq_some_iff.mpr ⟨hlater, hname⟩⟩

/-- The line of an item whose listing is still the same is still the same, but for the quantity.
The product and the shop of the listing last, and the line shows nothing else. -/
theorem line (h : c.Lasts d) {i : OrderItem}
    (hlistings : ∀ l l', c.listings.get? i.listing = some l → d.listings.get? i.listing = some l' →
      l' = l) {quantity : Int} {x y : OrderLine} (hx : Store.line? c i = some x)
    (hy : Store.line? d { i with quantity := quantity } = some y) :
    y = { x with quantity := quantity } := by
  simp only [Store.line?, Option.bind_eq_some_iff, Option.map_eq_some_iff] at hx hy
  obtain ⟨l, hl, p, hp, s, hs, rfl⟩ := hx
  obtain ⟨l', hl', p', hp', s', hs', rfl⟩ := hy
  have hlisting := hlistings l l' hl hl'
  subst hlisting
  obtain ⟨accepting, hshop⟩ := h.shops _ _ hs
  rw [h.products _ _ hp] at hp'
  rw [hshop] at hs'
  cases hp'
  cases hs'
  rfl

end Catalog.Lasts

namespace Store

variable {s t : Store} {c : Catalog} {id : ListingId} {l : ListingData}
  {may : ListingData → Prop}

/-- The catalog's rows that stay are in both catalogs of the store, the published one and the draft.
The draft is looked at as well since it may be the published one next. -/
def Retains (s : Store) (c : Catalog) : Prop := ∀ d, s.Has d → c.Lasts d

theorem Sound.retains (h : s.Sound) : s.Retains s.catalog := by
  rintro d (rfl | hd)
  · exact .refl _
  · obtain ⟨n, -, hevolves⟩ := h.draft d hd
    exact (Catalog.Lasts.refl _).evolves hevolves

/-- Each thing that happens to a store keeps the rows in both catalogs. -/
theorem Retains.moves (h : s.Retains c) (hst : s.Moves t) : t.Retains c := by
  cases hst with
  | keep hcatalog _ hdraft =>
    rintro d (rfl | hd)
    · exact h _ (Or.inl hcatalog)
    · rcases hdraft d hd with hold | rfl
      · exact h d (Or.inr hold)
      · exact h _ (Or.inl rfl)
  | accept _ ht =>
    subst ht
    rintro d (rfl | hd)
    · exact (h _ (Or.inl rfl)).accept _ _
    · exact h d (Or.inr hd)
  | edit hs ht hevolves =>
    rw [hs] at h
    subst ht
    rintro d (rfl | hd)
    · exact h _ (Or.inl rfl)
    · cases hd
      exact (h _ (Or.inr rfl)).evolves hevolves
  | publish hs hcatalog _ hdraft =>
    rintro d (rfl | hd)
    · exact h _ (Or.inr (hcatalog ▸ hs))
    · rw [hdraft d hd]
      exact h _ (Or.inr hs)

/-! ## Listings -/

/-- The identifier has been given, the catalog's listing under it is one that may be there, and a
draft has none under it but the catalog's. -/
structure Binds (s : Store) (id : ListingId) (may : ListingData → Prop) : Prop where
  given : id.value ≤ s.counters.listing
  listed : ∀ l, s.catalog.listings.get? id = some l → may l
  draft : ∀ c, s.draft = some c → ∀ l, c.listings.get? id = some l →
    s.catalog.listings.get? id = some l

namespace Binds

theorem of_listing (h : s.Sound) (hl : s.catalog.listings.get? id = some l) :
    s.Binds id (· = l) where
  given := (h.catalog.listings id l hl).1
  listed := by
    intro l' hl'
    rw [hl] at hl'
    exact (Option.some.inj hl').symm
  draft := by
    intro c hc l' hl'
    rw [h.draft_listing hc hl hl']
    exact hl

/-- Once the listing has gone there may be none: its identifier has been given, and is not given
again. -/
theorem gone (h : s.Binds id may) (hgone : s.catalog.listings.get? id = none) :
    s.Binds id fun _ => False :=
  { h with
    listed := by
      intro l hl
      rw [hgone] at hl
      cases hl }

/-- A listing of the identifier is one that has been there, or there is none. -/
theorem moves (h : s.Binds id may) (hst : s.Moves t) : t.Binds id may := by
  cases hst with
  | keep hcatalog hcounters hdraft =>
    refine ⟨hcounters ▸ h.given, hcatalog ▸ h.listed, fun c hc l hl => ?_⟩
    rw [hcatalog]
    rcases hdraft c hc with hold | rfl
    · exact h.draft c hold l hl
    · exact hl
  | accept _ ht =>
    subst ht
    exact ⟨h.given, h.listed, h.draft⟩
  | @edit d e hs ht hevolves =>
    rw [hs] at h
    subst ht
    refine ⟨Int.le_trans h.given hevolves.counters.listing, h.listed, fun c hc l hl => ?_⟩
    cases hc
    rcases hevolves.listings id l hl with hold | hnew
    · exact h.draft d.catalog rfl l hold
    · exact absurd h.given (Int.not_le.mpr hnew)
  | @publish c hs hcatalog hcounters hdraft =>
    refine ⟨hcounters ▸ h.given, fun l hl => ?_, fun d hd l hl => ?_⟩
    · rw [hcatalog] at hl
      exact h.listed l (h.draft c hs l hl)
    · rw [hcatalog, ← hdraft d hd]
      exact hl

end Binds

end Store

/-! ## Order items -/

namespace OrderBook

variable {listed : ListingId → Bool} {b b' : OrderBook} {k : OrderItemId} {i : OrderItem}

/-- The identifier has been given, and an item under it is this one, maybe in another quantity.  An
item that has been taken away does not come back under its identifier. -/
structure Names (b : OrderBook) (k : OrderItemId) (i : OrderItem) : Prop where
  given : k.value ≤ b.lastItem
  item : ∀ j, b.items.get? k = some j → j = { i with quantity := j.quantity }

theorem Names.of_get? (hb : b.Lawful) (hi : b.items.get? k = some i) : b.Names k i where
  given := hb.items k i hi
  item := by
    intro j hj
    rw [hi] at hj
    cases hj
    rfl

/-- Items may go. -/
theorem Names.filter (h : b.Names k i) (p : OrderItemId → OrderItem → Bool) :
    Names { b with items := b.items.filter p } k i :=
  ⟨h.given, fun j hj => h.item j (Table.get?_filter_eq_some_iff.mp hj).1⟩

/-- No call puts another item under an identifier that has been given. -/
theorem Names.change {c : Call} (h : b.Names k i) (hchange : b.Change listed c b') :
    b'.Names k i := by
  cases hchange with
  | insertItem hi =>
    obtain ⟨-, -, -, rfl, rfl⟩ := insertItem_ok hi
    have hgiven := h.given
    refine ⟨by simp only; omega, fun j hj => h.item j ?_⟩
    have hne : (⟨b.lastItem + 1⟩ : OrderItemId) ≠ k := by
      rintro rfl
      simp only at hgiven
      omega
    simpa only [Table.get?_insert, if_neg hne] using hj
  | @updateQuantity order key quantity old hold _ =>
    refine ⟨h.given, fun j hj => ?_⟩
    rw [Table.get?_insert] at hj
    split at hj
    · rename_i hkey
      subst hkey
      cases hj
      exact congrArg (fun x : OrderItem => { x with quantity := quantity }) (h.item old hold)
    · exact h.item j hj
  | deleteItems => exact h.filter _
  | _ => exact ⟨h.given, h.item⟩

theorem Names.turns {a : Activity} {w : World} (h : w.store.book.Names k i) (hturns : a.Turns w b) :
    b.Names k i := by
  cases hturns with
  | call _ _ hchange => exact h.change hchange
  | cascade _ => exact h.filter _
  | clear _ => exact ⟨h.given, h.item⟩
  | drop => exact h

end OrderBook

/-! ## At any later time -/

namespace Pool

variable {admitted : Program Unit → Prop} {P Q : Pool}

/-- What every step of stores keeps holds at any later time. -/
theorem Later.store_invariant {I : Store → Prop} (hI : ∀ s t, I s → s.Step t → I t)
    (hlater : Later admitted P Q) (hP : I P.world.store) : I Q.world.store := by
  induction hlater with
  | refl => exact hP
  | tail _ hst ih =>
    cases hst with
    | start _ => exact ih
    | move as bs ha => exact ha.store_invariant hI ih
    | environment clock files => exact ih

/-- Steps of the activities at the given places lead to a later time. -/
theorem Later.play {is : List Nat} (hplay : Pool.play is P = some Q) : Later admitted P Q := by
  induction is generalizing P with
  | nil =>
    cases hplay
    exact .refl
  | cons i is ih =>
    simp only [Pool.play, Option.bind_eq_some_iff] at hplay
    obtain ⟨a, ha, r, hr, hrest⟩ := hplay
    exact (ih hrest).head (.advance ha hr)

theorem Later.retains (hlater : Later admitted P Q) (hsound : P.world.store.Sound) {c : Catalog}
    (h : P.world.store.Retains c) : Q.world.store.Retains c :=
  (hlater.store_invariant (I := fun s => s.Sound ∧ s.Retains c)
    (fun _ _ hs hst => ⟨hs.1.step hst, hs.2.moves (hs.1.moves hst)⟩) ⟨hsound, h⟩).2

theorem Later.binds (hlater : Later admitted P Q) (hsound : P.world.store.Sound) {id : ListingId}
    {may : ListingData → Prop} (h : P.world.store.Binds id may) : Q.world.store.Binds id may :=
  (hlater.store_invariant (I := fun s => s.Sound ∧ s.Binds id may)
    (fun _ _ hs hst => ⟨hs.1.step hst, hs.2.moves (hs.1.moves hst)⟩) ⟨hsound, h⟩).2

theorem Later.names (hlater : Later admitted P Q) {k : OrderItemId} {i : OrderItem}
    (h : P.world.store.book.Names k i) : Q.world.store.book.Names k i := by
  induction hlater with
  | refl => exact h
  | tail _ hst ih =>
    cases hst with
    | start _ => exact ih
    | move as bs ha => exact ih.turns ha.turns
    | environment clock files => exact ih

/-- Of two catalogs that have been published at different times, the later one has the shops, the
categories, the products and the parameters of the earlier one under their identifiers and with
their names, owners and categories; a listing of the earlier one is in the later one as it was, or
is not there and never will be again.  So a name is that of one shop for ever, and an order item
stands for one listing, of one shop, product and price. -/
theorem Reachable.rows_permanent (h : P.Reachable admitted) (hlater : Later admitted P Q) :
    let c := P.world.store.catalog
    let d := Q.world.store.catalog
    c.Lasts d ∧
      (∀ id l, c.listings.get? id = some l → d.listings.get? id = some l ∨
        d.listings.get? id = none ∧ ∀ R, Later admitted Q R →
          R.world.store.catalog.listings.get? id = none) ∧
      (∀ name s, c.shopNamed? name = some s →
        ∃ accepting, d.shopNamed? name = some { s with acceptingOrders := accepting }) ∧
      ∀ k i j, P.world.store.book.items.get? k = some i → Q.world.store.book.items.get? k = some j →
        j = { i with quantity := j.quantity } ∧
          ∀ x y, Store.line? c i = some x → Store.line? d j = some y →
            y = { x with quantity := j.quantity } := by
  intro c d
  have hsound := h.store.sound
  have hsound' : Q.world.store.Sound := (h.later hlater).store.sound
  have hlasts : c.Lasts d := Later.retains hlater hsound hsound.retains d (Or.inl rfl)
  have hsame : ∀ id l l', c.listings.get? id = some l → d.listings.get? id = some l' → l' = l :=
    fun id l l' hl hl' => (Later.binds hlater hsound (.of_listing hsound hl)).listed l' hl'
  refine ⟨hlasts, fun id l hl => ?_, fun name s hs => ?_, fun k i j hi hj => ?_⟩
  · cases hl' : d.listings.get? id with
    | some l' => exact Or.inl (by rw [hsame id l l' hl hl'])
    | none =>
      refine Or.inr ⟨rfl, fun R hR => Option.eq_none_iff_forall_ne_some.mpr fun l' hl'' => ?_⟩
      have hgone := (Later.binds hlater hsound (.of_listing hsound hl)).gone hl'
      exact (Later.binds hR hsound' hgone).listed l' hl''
  · exact hlasts.shopNamed hsound.catalog hsound'.catalog hs
  · have hitem := (Later.names hlater (.of_get? h.lawful hi)).item j hj
    refine ⟨hitem, fun x y hx hy => ?_⟩
    rw [hitem] at hy
    exact hlasts.line (hsame i.listing) hx hy

/-- The first shop of `phoneSale` imports again: its old listing is gone for good, the one of the
other shop is still there, and so is the name of the shop. -/
theorem Reachable.rows_permanent_after_laterList : ∃ (P Q : Pool) (l : ListingData) (s : Shop),
    P.Reachable (fun _ => True) ∧ Later (fun _ => True) P Q ∧
      P.world.store.catalog.listings.keys = [⟨1⟩, ⟨2⟩] ∧
      Q.world.store.catalog.listings.keys = [⟨2⟩, ⟨3⟩, ⟨4⟩] ∧
      P.world.store.catalog.listings.get? ⟨2⟩ = some l ∧
      Q.world.store.catalog.listings.get? ⟨2⟩ = some l ∧
      (∀ R, Later (fun _ => True) Q R → R.world.store.catalog.listings.get? ⟨1⟩ = none) ∧
      P.world.store.catalog.shopNamed? "Svyaznoy" = some s ∧
      ∃ accepting, Q.world.store.catalog.shopNamed? "Svyaznoy" =
        some { s with acceptingOrders := accepting } := by
  let programs := Importer.phoneSale ++
    [(Importer.apply Importer.laterList ⟨1⟩).run.bind fun _ => .done ()]
  let phone : ShopId → ListingData := fun shop => ⟨⟨1⟩, shop, "x", 4216292, 14, 110, 116⟩
  have hplay : (Pool.play (List.replicate 13 0 ++ List.replicate 13 1 ++ List.replicate 7 2)
      ⟨.start ⟨0, 0⟩ 3, programs.map .start⟩).any (fun P =>
        decide (P.world.store.catalog.listings.keys = [⟨1⟩, ⟨2⟩] ∧
          P.world.store.catalog.listings.get? ⟨1⟩ = some (phone ⟨1⟩) ∧
          P.world.store.catalog.listings.get? ⟨2⟩ = some (phone ⟨2⟩) ∧
          P.world.store.catalog.shopNamed? "Svyaznoy" =
            some ⟨⟨1⟩, "Svyaznoy", ⟨1⟩, none, true⟩) &&
          (Pool.play (List.replicate 15 3) P).any fun Q =>
            decide (Q.world.store.catalog.listings.keys = [⟨2⟩, ⟨3⟩, ⟨4⟩] ∧
              Q.world.store.catalog.listings.get? ⟨1⟩ = none ∧
              Q.world.store.catalog.listings.get? ⟨2⟩ ≠ none)) = true := by
    decide +kernel
  obtain ⟨P, hP, hfacts⟩ := (Option.any_eq_true _ _).mp hplay
  obtain ⟨hfacts, hplay'⟩ := (Bool.and_eq_true _ _).mp hfacts
  obtain ⟨Q, hQ, hfacts'⟩ := (Option.any_eq_true _ _).mp hplay'
  obtain ⟨hkeys, hfirst, hsecond, hshop⟩ := of_decide_eq_true hfacts
  obtain ⟨hkeys', hgone, hthere⟩ := of_decide_eq_true hfacts'
  have hreach : P.Reachable (fun _ => True) :=
    (Reachable.begin ⟨0, 0⟩ 3 fun p (_ : p ∈ programs) => trivial).play hP
  have hlater : Later (fun _ => True) P Q := .play hQ
  obtain ⟨-, hlistings, hnames, -⟩ := hreach.rows_permanent hlater
  have hnever := (hlistings _ _ hfirst).resolve_left (by rw [hgone]; nofun)
  have hstill := (hlistings _ _ hsecond).resolve_right fun h => hthere h.1
  exact ⟨P, Q, _, _, hreach, hlater, hkeys, hkeys', hsecond, hstill, hnever.2, hshop,
    hnames _ _ hshop⟩

end Pool

end Marketplace
