import Marketplace.Proofs.Order.Basket
set_option autoImplicit false

/-!
# Additions to a basket

Entries are added to the basket one by one.  Each one that can be had becomes an item, and the first
one that cannot ends the addition; the items before it stay (`Pool.Reachable.longest_prefix_added`).

What can be had is said by `Catalog.Grants` in terms of the entry and the catalog.  Adding makes
more rows in the book and touches no listing, so whether an entry can be had is settled before the
first one is added, and the prefix that is added is found in the catalog alone (`Added`).
-/

namespace Marketplace

open Program

/-! ## What can be had -/

/-- A value denotes one number at most, so an entry asks for one item. -/
theorem Json.Value.DenotesPositive.eq {v : Json.Value} {n m : Int} (hn : v.DenotesPositive n)
    (hm : v.DenotesPositive m) : m = n := by
  have heq := (loose_positive?_iff.mpr hm).symm.trans (loose_positive?_iff.mpr hn)
  cases heq
  rfl

theorem Json.Value.DenotesPositive.pos {v : Json.Value} {n : Int} (h : v.DenotesPositive n) :
    0 < n := by
  rcases h with ⟨-, hpos, -⟩ | ⟨s, -, -, -, hpos, -⟩
  · exact hpos
  · exact hpos

theorem AddInput.AsksFor.eq {input : AddInput} {item item' : AddItem} (h : input.AsksFor item)
    (h' : input.AsksFor item') : item' = item := by
  obtain ⟨⟨v, hv, hn⟩, q, hq, hm⟩ := h
  obtain ⟨⟨v', hv', hn'⟩, q', hq', hm'⟩ := h'
  rw [hv] at hv'
  rw [hq] at hq'
  cases hv'
  cases hq'
  obtain ⟨⟨listing⟩, quantity⟩ := item
  obtain ⟨⟨listing'⟩, quantity'⟩ := item'
  cases hn.eq hn'
  cases hm.eq hm'
  rfl

namespace Catalog

variable {c : Catalog} {n : CatalogCounters}

/-- The entry asks for an item that can be had: there is the listing, and its shop accepts
orders. -/
structure Grants (c : Catalog) (input : AddInput) (item : AddItem) (shop : ShopId) : Prop where
  asked : input.AsksFor item
  listing : ∃ l, c.listings.get? item.listing = some l ∧ l.shop = shop
  accepting : ∃ s, c.shops.get? shop = some s ∧ s.acceptingOrders = true

/-- What a visitor sees of a listing is what is stored of it and of its shop.  In a coherent catalog
a listing that is stored is always seen, for all that it refers to is there. -/
theorem Coherent.listing?_cases (h : c.Coherent n) (id : ListingId) :
    c.listings.get? id = none ∧ c.listing? id = none ∨
      ∃ l s v, c.listings.get? id = some l ∧ c.shops.get? l.shop = some s ∧
        c.listing? id = some v ∧ v.id = id ∧ v.shop.id = l.shop ∧
        v.shop.acceptingOrders = s.acceptingOrders := by
  unfold listing?
  cases hl : c.listings.get? id with
  | none => exact Or.inl ⟨rfl, rfl⟩
  | some l =>
    obtain ⟨-, hproduct, hshop, -⟩ := h.listings id l hl
    obtain ⟨p, hp⟩ := Table.contains_iff.mp hproduct
    obtain ⟨s, hs⟩ := Table.contains_iff.mp hshop
    obtain ⟨k, hk⟩ := Table.contains_iff.mp (h.products _ p hp).2.2
    exact Or.inr ⟨l, s, _, rfl, hs, view?_eq hp hk hs id, rfl, (h.shops _ s hs).1, rfl⟩

end Catalog

/-! ## More items -/

/-- The item that is stored when `last` is the last number that an item has been given.  Items are
numbered on, whatever order they are in. -/
def AddItem.stored (item : AddItem) (last : Int) (order : OrderId) (shop : ShopId) : OrderItem :=
  ⟨⟨last + 1⟩, order, item.listing, shop, item.quantity⟩

namespace OrderBook

/-- The book with more items, stored one after the other, and with the counter as far on. -/
def withItems (b : OrderBook) (rows : List OrderItem) : OrderBook :=
  { b with
    items := rows.foldl (fun t i => t.insert i.id i) b.items
    lastItem := b.lastItem + rows.length }

theorem withItems_nil (b : OrderBook) : b.withItems [] = b := by
  unfold withItems
  rw [List.foldl_nil, List.length_nil, Int.natCast_zero, Int.add_zero]

theorem withItems_cons (b : OrderBook) (i : OrderItem) (rows : List OrderItem) :
    (b.withItems [i]).withItems rows = b.withItems (i :: rows) := by
  have hlast : b.lastItem + ([i].length : Nat) + rows.length =
      b.lastItem + ((i :: rows).length : Nat) := by
    simp only [List.length_cons, List.length_nil]
    omega
  unfold withItems
  rw [← hlast]
  rfl

end OrderBook

namespace Orders

variable {w : World} {u : UserId} {c : Catalog} {order : OrderId}

/-- Which items the entries of a list become, if `last` is the last number that an item has been
given: each entry that can be had becomes one, up to the first one that cannot. -/
inductive Added (c : Catalog) (order : OrderId) : Int → List AddInput → List OrderItem → Prop
  | none {last : Int} : Added c order last [] []
  | refused {last : Int} {input : AddInput} {inputs : List AddInput}
      (hnot : ∀ item shop, ¬c.Grants input item shop) : Added c order last (input :: inputs) []
  | taken {last : Int} {input : AddInput} {inputs : List AddInput} {rows : List OrderItem}
      {item : AddItem} {shop : ShopId} (hgrants : c.Grants input item shop)
      (hrest : Added c order (last + 1) inputs rows) :
      Added c order last (input :: inputs) (item.stored last order shop :: rows)

/-- An item of a listing that is there is stored under the next number.  The storage could refuse
one whose listing has gone in between, but alone nothing comes in between. -/
theorem run_insertItem {listing : ListingId} {quantity : Int} (hquantity : 0 < quantity)
    (horder : w.store.book.orders.contains order = true)
    (hlisted : w.store.catalog.listings.contains listing = true) (shop : ShopId) (index : Nat) :
    (do
      let row ← ExceptT.lift (ask (.store (.orders (.insertItem order listing shop quantity))))
      Service.ofExcept (row.mapError (refuseItem index)) :
        Service OrderItem).run.run World.handle w =
        some (.ok ⟨⟨w.store.book.lastItem + 1⟩, order, listing, shop, quantity⟩,
          { w with store := { w.store with book := w.store.book.withItems (
            [⟨⟨w.store.book.lastItem + 1⟩, order, listing, shop, quantity⟩]) } }) := by
  have hinserted : w.store.tryBook (·.insertItem w.store.catalog.listings.contains order
      listing shop quantity) = (.ok ⟨⟨w.store.book.lastItem + 1⟩, order, listing, shop, quantity⟩,
        { w.store with book := w.store.book.withItems (
          [⟨⟨w.store.book.lastItem + 1⟩, order, listing, shop, quantity⟩]) }) := by
    simp only [Store.tryBook, OrderBook.insertItem, if_neg (Int.not_le.mpr hquantity), horder,
      hlisted]
    rfl
  have hask : (ExceptT.lift (ask (.store (.orders (.insertItem order listing shop quantity)))) :
      Service (Except StorageFault OrderItem)).run.run World.handle w =
        some (.ok (w.store.tryBook (·.insertItem w.store.catalog.listings.contains order
          listing shop quantity)).1, { w with store := (w.store.tryBook
            (·.insertItem w.store.catalog.listings.contains order listing shop quantity)).2 }) :=
      rfl
  rw [hinserted] at hask
  exact run_bind_of_ok hask

/-- One entry becomes an item, or is refused with a text that begins with its place.  The cases are
those of the entry: a field that is wrong, no such listing, a shop that takes no orders, and none of
these. -/
theorem run_addItem {n : CatalogCounters} (hc : w.store.catalog.Coherent n)
    (horder : w.store.book.orders.contains order = true) (index : Nat) (input : AddInput) :
    (∃ item shop, w.store.catalog.Grants input item shop ∧
      (addItem order index input).run.run World.handle w =
        some (.ok (item.stored w.store.book.lastItem order shop), { w with store := { w.store with
          book := w.store.book.withItems [item.stored w.store.book.lastItem order shop] } })) ∨
      (∀ item shop, ¬w.store.catalog.Grants input item shop) ∧
        ∃ rest, (addItem order index input).run.run World.handle w =
          some (.error (.invalidArguments (s!"items[{index}]" ++ rest)), w) := by
  have hplaced : ∀ field name tail : String,
      some (Except.error (Refusal.invalidArguments
        ("items[" ++ toString index ++ ("]" ++ field) ++ name ++ tail)), w) =
      some ((Except.error (Refusal.invalidArguments
        (s!"items[{index}]" ++ (field ++ (name ++ tail)))) : Except Refusal OrderItem), w) := by
    intro field name tail
    rw [String.append_assoc, place_append]
  unfold addItem
  rcases input.check_cases index with ⟨item, hasks, hcheck⟩ | ⟨hnot, rest, hcheck⟩
  · have hchecked : (Service.ofExcept (input.check index)).run.run World.handle w =
        some (.ok item, w) := by
      rw [hcheck]
      rfl
    have hread : (Service.catalog (.listing item.listing)).run.run World.handle w =
        some (.ok (w.store.catalog.listing? item.listing), w) := rfl
    rw [run_bind_of_ok hchecked, run_bind_of_ok hread]
    rcases hc.listing?_cases item.listing with
      ⟨hnone, hunseen⟩ | ⟨l, s, v, hl, hs, hv, hvid, hvshop, hvaccepting⟩
    · refine Or.inr ⟨fun item' shop hgrants => ?_,
        ".listing: listing " ++ (toString item.listing ++ " does not exist"), ?_⟩
      · obtain ⟨l, hl, -⟩ := hgrants.listing
        rw [hasks.eq hgrants.asked, hnone] at hl
        cases hl
      · rw [hunseen]
        exact hplaced ".listing: listing " (toString item.listing) " does not exist"
    · rw [hv]
      cases haccepting : s.acceptingOrders with
      | false =>
        refine Or.inr ⟨fun item' shop hgrants => ?_,
          ".listing: shop '" ++ (v.shop.name ++ "' is not accepting orders"), ?_⟩
        · obtain ⟨l', hl', rfl⟩ := hgrants.listing
          obtain ⟨s', hs', haccepting'⟩ := hgrants.accepting
          rw [hasks.eq hgrants.asked, hl] at hl'
          cases hl'
          rw [hs] at hs'
          cases hs'
          rw [haccepting] at haccepting'
          cases haccepting'
        · simp only [hvaccepting, haccepting]
          exact hplaced ".listing: shop '" v.shop.name "' is not accepting orders"
      | true =>
        refine Or.inl ⟨item, l.shop, ⟨hasks, ⟨l, hl, rfl⟩, s, hs, haccepting⟩, ?_⟩
        have hpositive : 0 < item.quantity := by
          obtain ⟨q, -, hq⟩ := hasks.quantity
          exact hq.pos
        have hlisted : w.store.catalog.listings.contains v.id = true :=
          Table.contains_of_get? (hvid.symm ▸ hl)
        have hstored : item.stored w.store.book.lastItem order l.shop =
            ⟨⟨w.store.book.lastItem + 1⟩, order, v.id, v.shop.id, item.quantity⟩ := by
          rw [hvid, hvshop]
          rfl
        simp only [hvaccepting, haccepting, hstored]
        exact run_insertItem hpositive horder hlisted v.shop.id index
  · refine Or.inr ⟨fun item shop hgrants => hnot item hgrants.asked, rest, run_bind_of_error ?_⟩
    rw [hcheck]
    rfl

/-- What is answered when so many of the entries have become items: the items if that is all of
them, and otherwise a refusal with a text that begins with the place of the next entry. -/
def Told (index : Nat) (inputs : List AddInput) (rows : List OrderItem)
    (r : Except Refusal (List OrderItem)) : Prop :=
  if rows.length = inputs.length then r = .ok rows
  else ∃ rest, r = .error (.invalidArguments (s!"items[{index + rows.length}]" ++ rest))

/-- If an entry is added, what is told of the others is told of all, one place further on. -/
theorem Told.cons {index : Nat} {inputs : List AddInput} {rows : List OrderItem}
    {r : Except Refusal (List OrderItem)} (h : Told (index + 1) inputs rows r) (input : AddInput)
    (i : OrderItem) : Told index (input :: inputs) (i :: rows) (r.map (i :: ·)) := by
  unfold Told at h ⊢
  simp only [List.length_cons, Nat.add_right_cancel_iff]
  split at h
  · rename_i hall
    rw [if_pos hall, h]
    rfl
  · rename_i hsome
    obtain ⟨rest, rfl⟩ := h
    rw [if_neg hsome]
    refine ⟨rest, ?_⟩
    rw [Nat.add_right_comm, Nat.add_assoc]
    rfl

/-- The entries become items up to the first one that is refused.  The induction is on the entries;
the world changes with each of them, but only in its items. -/
theorem run_addEach {n : CatalogCounters} (w : World) (hc : w.store.catalog.Coherent n)
    (horder : w.store.book.orders.contains order = true) (index : Nat) (inputs : List AddInput) :
    ∃ rows r, Added w.store.catalog order w.store.book.lastItem inputs rows ∧
      (addEach order index inputs).run.run World.handle w =
        some (r, { w with store := { w.store with book := w.store.book.withItems rows } }) ∧
      Told index inputs rows r := by
  induction inputs generalizing w index with
  | nil =>
    refine ⟨[], .ok [], .none, ?_, rfl⟩
    rw [OrderBook.withItems_nil]
    rfl
  | cons input inputs ih =>
    rw [addEach]
    rcases run_addItem hc horder index input with
      ⟨item, shop, hgrants, hrun⟩ | ⟨hnot, rest, hrun⟩
    · let i := item.stored w.store.book.lastItem order shop
      let v : World := { w with store := { w.store with book := w.store.book.withItems [i] } }
      obtain ⟨rows, r, hadded, hrest, htold⟩ := ih v hc horder (index + 1)
      refine ⟨i :: rows, r.map (i :: ·), .taken hgrants hadded, ?_, htold.cons input i⟩
      rw [run_bind_of_ok hrun]
      rw [OrderBook.withItems_cons] at hrest
      cases r with
      | error f => exact run_bind_of_error hrest
      | ok is => exact run_bind_of_ok hrest
    · refine ⟨[], .error (.invalidArguments (s!"items[{index}]" ++ rest)), .refused hnot, ?_, ?_⟩
      · rw [OrderBook.withItems_nil]
        exact run_bind_of_error hrun
      · exact ⟨rest, rfl⟩

/-! ## The items that are added -/

namespace Added

variable {last : Int} {inputs : List AddInput} {rows : List OrderItem}

/-- Each item is what its entry asks for. -/
theorem forall₂ (h : Added c order last inputs rows) :
    List.Forall₂ (fun input i => ∃ item, c.Grants input item i.shop ∧ i.order = order ∧
      i.listing = item.listing ∧ i.quantity = item.quantity) (inputs.take rows.length) rows := by
  induction h with
  | none => exact .nil
  | refused => exact .nil
  | taken hgrants _ ih => exact .cons ⟨_, hgrants, rfl, rfl, rfl⟩ ih

/-- The next entry cannot be had, since the prefix that is added is the longest one. -/
theorem not_grants (h : Added c order last inputs rows) {input : AddInput}
    (hnext : inputs[rows.length]? = some input) (item : AddItem) (shop : ShopId) :
    ¬c.Grants input item shop := by
  induction h with
  | none => cases hnext
  | refused hnot =>
    cases hnext
    exact hnot item shop
  | taken _ _ ih => exact ih hnext

/-- Items are numbered on from the last one. -/
theorem ids (h : Added c order last inputs rows) :
    rows.map (·.id.value) = (List.range rows.length).map fun j : Nat => last + 1 + j := by
  induction h with
  | none => rfl
  | refused => rfl
  | taken _ _ ih =>
    rw [List.map_cons, ih, List.length_cons, List.range_succ_eq_map, List.map_cons, List.map_map]
    refine congrArg₂ List.cons ?_ (List.map_congr_left fun j _ => ?_)
    · exact (Int.add_zero _).symm
    · simp only [Function.comp_apply, Nat.succ_eq_add_one]
      omega

/-- Each new item stands at the end when it is stored, for its number is beyond all before it. -/
theorem entries (h : Added c order last inputs rows) {items : Table OrderItemId OrderItem}
    (hitems : items.All fun k _ => k.value ≤ last) :
    (rows.foldl (fun t i => t.insert i.id i) items).entries =
      items.entries ++ rows.map fun i => (i.id, i) := by
  induction h generalizing items with
  | none => exact (List.append_nil _).symm
  | refused => exact (List.append_nil _).symm
  | @taken last _ _ rows item shop _ _ ih =>
    have hnew : items.get? ⟨last + 1⟩ = .none := by
      refine Option.eq_none_iff_forall_ne_some.mpr fun i hi => ?_
      have hle := hitems _ i hi
      simp only at hle
      omega
    have hnext : (items.insert ⟨last + 1⟩ (item.stored last order shop)).All
        fun k _ => k.value ≤ last + 1 :=
      (hitems.imp fun _ _ hk => by omega).insert (Int.le_refl _)
    rw [List.foldl_cons, List.map_cons]
    refine (ih hnext).trans ?_
    rw [Table.entries_insert_new hnew, List.append_assoc]
    rfl

end Added

/-- As long as something else is done for the buyer, an addition waits. -/
theorem run_add_of_held (hheld : u ∈ w.locked) {inputs : List AddInput} (hne : inputs ≠ []) :
    (add u inputs).run.run World.handle w = none := by
  unfold add
  rw [List.isEmpty_eq_false_iff.mpr hne]
  exact run_locked_of_held _ hheld

/-- What an addition to the basket comes to: the basket is there or is made, and the entries are
added to it one by one. -/
theorem run_add {n : CatalogCounters} (hfree : u ∉ w.locked) (hc : w.store.catalog.Coherent n)
    (hb : w.store.book.Lawful) {inputs : List AddInput} (hne : inputs ≠ []) :
    ∃ rows r, Added w.store.catalog (w.store.book.getOrCreateBasket u w.clock).1.id
        w.store.book.lastItem inputs rows ∧
      (add u inputs).run.run World.handle w = some (r, { w with store := { w.store with
        book := (w.store.book.getOrCreateBasket u w.clock).2.withItems rows } }) ∧
      Told 0 inputs rows r := by
  have hempty : inputs.isEmpty = false := List.isEmpty_eq_false_iff.mpr hne
  obtain ⟨hthere, -⟩ := OrderBook.getOrCreateBasket_spec hb u w.clock
  let v : World := { w with
    store := { w.store with book := (w.store.book.getOrCreateBasket u w.clock).2 }
    locked := u :: w.locked }
  obtain ⟨rows, r, hadded, hrun, htold⟩ :=
    run_addEach v hc (Table.contains_of_get? hthere) 0 inputs
  rw [w.store.book.lastItem_getOrCreateBasket u w.clock] at hadded
  refine ⟨rows, r, hadded, ?_, htold⟩
  unfold add
  rw [hempty]
  exact run_onBasket hfree _ hrun

end Orders

namespace Pool

variable {P : Pool}

/-- An addition to a basket adds the longest prefix of entries that can be had, each with a positive
listing and quantity, a listing that there is, and a shop that accepts orders.  The items that these
entries become are stored behind all others, numbered on from the last one, and are the answer if
that is all of them; otherwise the answer is a refusal whose text begins with the place of the next
entry.  But for the basket, which may have been made, nothing else is another; and an empty list is
refused before a basket is made.  As long as something else is done for the buyer, an addition that
is not empty waits. -/
theorem Reachable.longest_prefix_added (h : P.Reachable Program.ThroughServices) (u : UserId) :
    (Orders.add u []).run.run World.handle P.world =
        some (.error (.invalidArguments "items: must not be empty"), P.world) ∧
      (u ∈ P.world.locked → ∀ inputs : List AddInput, inputs ≠ [] →
        (Orders.add u inputs).run.run World.handle P.world = none) ∧
      (u ∉ P.world.locked → ∀ inputs : List AddInput, inputs ≠ [] → ∃ rows items r,
        (Orders.add u inputs).run.run World.handle P.world = some (r,
          { P.world with store := { P.world.store with book :=
            { (P.world.store.book.getOrCreateBasket u P.world.clock).2 with
              items := items
              lastItem := P.world.store.book.lastItem + (rows.length : Nat) } } }) ∧
        List.Forall₂ (fun input i => ∃ item, P.world.store.catalog.Grants input item i.shop ∧
            i.order = (P.world.store.book.getOrCreateBasket u P.world.clock).1.id ∧
            i.listing = item.listing ∧ i.quantity = item.quantity)
          (inputs.take rows.length) rows ∧
        (∀ input, inputs[rows.length]? = some input →
          ∀ item shop, ¬P.world.store.catalog.Grants input item shop) ∧
        items.entries = P.world.store.book.items.entries ++ rows.map (fun i => (i.id, i)) ∧
        rows.map (·.id.value) =
          (List.range rows.length).map (fun j : Nat => P.world.store.book.lastItem + 1 + j) ∧
        (∀ i ∈ rows, ∀ k, P.world.store.book.items.contains k = true → k.value < i.id.value) ∧
        if rows.length = inputs.length then r = .ok rows
        else ∃ rest, r = .error (.invalidArguments (s!"items[{rows.length}]" ++ rest))) := by
  refine ⟨rfl, fun hheld inputs hne => Orders.run_add_of_held hheld hne, fun hfree inputs hne => ?_⟩
  have hlawful := h.lawful
  obtain ⟨rows, r, hadded, hrun, htold⟩ := Orders.run_add hfree h.store.sound.catalog hlawful hne
  refine ⟨rows, _, r, ?_, hadded.forall₂, fun _ => hadded.not_grants,
    hadded.entries hlawful.items, hadded.ids, ?_, ?_⟩
  · rw [hrun]
    unfold OrderBook.withItems
    rw [OrderBook.items_getOrCreateBasket, OrderBook.lastItem_getOrCreateBasket]
  · intro i hi k hk
    obtain ⟨old, hold⟩ := Table.contains_iff.mp hk
    have hle := hlawful.items k old hold
    have hid : i.id.value ∈ rows.map (·.id.value) := List.mem_map_of_mem hi
    rw [hadded.ids, List.mem_map] at hid
    obtain ⟨j, -, hj⟩ := hid
    omega
  · unfold Orders.Told at htold
    rwa [Nat.zero_add] at htold

/-- After the import of `phoneOrder` two entries for the phone can be had, one of them in digits,
and the third one names no listing. -/
theorem Reachable.longest_prefix_added_in_phoneOrder : ∃ (P : Pool) (rest : String) (w : World),
    P.Reachable Program.ThroughServices ∧ ⟨7⟩ ∉ P.world.locked ∧
      (Orders.add ⟨7⟩ [⟨some (.int 1), some (.int 2)⟩, ⟨some (.text "1"), some (.text "03")⟩,
          ⟨some (.int 9), some (.int 1)⟩, ⟨some (.int 1), some (.int 1)⟩]).run.run World.handle
            P.world = some (.error (.invalidArguments (s!"items[{2}]" ++ rest)), w) ∧
      w.store.book.items.values = [⟨⟨1⟩, ⟨1⟩, ⟨1⟩, ⟨1⟩, 2⟩, ⟨⟨2⟩, ⟨1⟩, ⟨1⟩, ⟨1⟩, 3⟩] := by
  let inputs : List AddInput := [⟨some (.int 1), some (.int 2)⟩,
    ⟨some (.text "1"), some (.text "03")⟩, ⟨some (.int 9), some (.int 1)⟩,
    ⟨some (.int 1), some (.int 1)⟩]
  have hplay : (Pool.play (List.replicate 13 0) ⟨.start ⟨0, 0⟩ 3, phoneOrder.map .start⟩).any
      (fun P => P.world.locked.isEmpty && P.world.store.book.items.entries.isEmpty &&
        ((Orders.add ⟨7⟩ inputs).run.run World.handle P.world).any fun x => decide
          (x.2.store.book.items.values =
            [⟨⟨1⟩, ⟨1⟩, ⟨1⟩, ⟨1⟩, 2⟩, ⟨⟨2⟩, ⟨1⟩, ⟨1⟩, ⟨1⟩, 3⟩])) = true := by
    decide +kernel
  obtain ⟨P, hP, hfacts⟩ := (Option.any_eq_true _ _).mp hplay
  simp only [Bool.and_eq_true, List.isEmpty_iff] at hfacts
  obtain ⟨⟨hlocked, hbefore⟩, hafter⟩ := hfacts
  have hreach := (Reachable.begin ⟨0, 0⟩ 3 throughServices_phoneOrder).play hP
  have hfree : (⟨7⟩ : UserId) ∉ P.world.locked := by simp [hlocked]
  obtain ⟨-, -, hadd⟩ := hreach.longest_prefix_added ⟨7⟩
  obtain ⟨rows, items, r, hrun, -, -, hentries, -, -, htold⟩ :=
    hadd hfree inputs (List.cons_ne_nil _ _)
  rw [hrun, Option.any_some, decide_eq_true_eq] at hafter
  have hrows : rows = [⟨⟨1⟩, ⟨1⟩, ⟨1⟩, ⟨1⟩, 2⟩, ⟨⟨2⟩, ⟨1⟩, ⟨1⟩, ⟨1⟩, 3⟩] := by
    rw [← hafter, Table.values, hentries, hbefore, List.nil_append, List.map_map]
    exact (List.map_id rows).symm
  rw [hrows, if_neg (by decide)] at htold
  obtain ⟨rest, rfl⟩ := htold
  exact ⟨P, rest, _, hreach, hfree, hrun, hafter⟩

end Pool

end Marketplace
