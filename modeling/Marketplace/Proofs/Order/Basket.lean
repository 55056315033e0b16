import Marketplace.Proofs.Order.Checkout
import Marketplace.Proofs.Order.Frozen
import Marketplace.Proofs.Order.Request
set_option autoImplicit false

/-!
# Changes of a basket that run alone

What is done to the items of a basket under the buyer's lock, as one change of the order book.
Updates and removals pass over all that does not concern the basket
(`Pool.Reachable.basket_edited_leniently`).

Requests name items as they like: of others, twice, or with quantities that are none.  So the change
is first given as one change of the table of items (`OrderBook.requantified`), from which what is
said of single items follows.
-/

namespace Marketplace

open Program

variable {w : World} {u : UserId}

/-! ## Items of the basket -/

namespace OrderBook

variable {b : OrderBook} {order : OrderId}

/-- The item is one of the order's. -/
def holds (b : OrderBook) (order : OrderId) (item : OrderItemId) : Bool :=
  (b.items.get? item).any fun i => i.order == order

/-- The item is in the buyer's basket, if the buyer has one. -/
def inBasket (b : OrderBook) (u : UserId) (i : OrderItem) : Bool :=
  (b.basket? u).any fun o => i.order == o.id

/-- A basket that has just been made holds nothing.  So whether an item is in the basket does not
depend on whether there has been one before. -/
theorem inBasket_eq (hb : b.Lawful)
    (hitems : b.items.All fun _ i => b.orders.contains i.order = true) (now : Instant)
    {k : OrderItemId} {i : OrderItem} (hi : b.items.get? k = some i) :
    (i.order == (b.getOrCreateBasket u now).1.id) = b.inBasket u i := by
  unfold getOrCreateBasket inBasket
  cases b.basket? u with
  | some o => rfl
  | none =>
    refine beq_eq_false_iff_ne.mpr fun heq => ?_
    obtain ⟨o, ho⟩ := Table.contains_iff.mp (hitems k i hi)
    rw [heq] at ho
    exact Option.some_ne_none o (ho.symm.trans hb.order_fresh)

/-- To make a basket for a buyer adds no item, -/
theorem items_getOrCreateBasket (b : OrderBook) (u : UserId) (now : Instant) :
    (b.getOrCreateBasket u now).2.items = b.items := by
  unfold getOrCreateBasket
  split <;> rfl

/-- and gives no number of an item away. -/
theorem lastItem_getOrCreateBasket (b : OrderBook) (u : UserId) (now : Instant) :
    (b.getOrCreateBasket u now).2.lastItem = b.lastItem := by
  unfold getOrCreateBasket
  split <;> rfl

/-! ## Several quantities at once -/

/-- The quantity that the last update of the item gives.  Updates are made one after the other, and
a later one undoes an earlier one of the same item. -/
def lastQuantity? (updates : List (OrderItemId × Int)) (item : OrderItemId) : Option Int :=
  updates.reverse.lookup item

/-- A later update of an item counts instead of the first one. -/
theorem lastQuantity?_cons (x : OrderItemId × Int) (updates : List (OrderItemId × Int))
    (item : OrderItemId) :
    lastQuantity? (x :: updates) item =
      (lastQuantity? updates item).or (if item = x.1 then some x.2 else none) := by
  obtain ⟨k, quantity⟩ := x
  unfold lastQuantity?
  rw [List.reverse_cons, List.lookup_append, List.lookup_cons]
  by_cases h : item = k
  · simp only [h, beq_self_eq_true, if_true]
  · simp only [beq_eq_false_iff_ne.mpr h, h, if_false, List.lookup_nil]

/-- The quantity that the last update gives is one of those that the updates give. -/
theorem mem_of_lastQuantity? {updates : List (OrderItemId × Int)} {item : OrderItemId}
    {quantity : Int} (h : lastQuantity? updates item = some quantity) :
    (item, quantity) ∈ updates := by
  induction updates with
  | nil => cases h
  | cons x updates ih =>
    rw [lastQuantity?_cons, Option.or_eq_some_iff] at h
    rcases h with h | ⟨-, h⟩
    · exact List.mem_cons_of_mem x (ih h)
    · split at h
      · rename_i hitem
        cases h
        rw [hitem]
        exact List.mem_cons_self
      · cases h

/-- The item with the quantity that the last update of it gives, or with its own one. -/
def requantify (updates : List (OrderItemId × Int)) (k : OrderItemId) (i : OrderItem) : OrderItem :=
  { i with quantity := (lastQuantity? updates k).getD i.quantity }

/-- Quantities are one or more before and after. -/
theorem requantify_pos {updates : List (OrderItemId × Int)} {i : OrderItem}
    (hpositive : ∀ x ∈ updates, 0 < x.2) (hi : 0 < i.quantity) (k : OrderItemId) :
    0 < (requantify updates k i).quantity := by
  simp only [requantify]
  cases hlast : lastQuantity? updates k with
  | none => exact hi
  | some quantity => exact hpositive _ (mem_of_lastQuantity? hlast)

theorem requantify_single (item k : OrderItemId) (quantity : Int) (i : OrderItem) :
    requantify [(item, quantity)] k i =
      if k = item then { i with quantity := quantity } else i := by
  unfold requantify
  rw [lastQuantity?_cons]
  split <;> rfl

/-- An update and then the others are all of them, for the last one of an item decides. -/
theorem requantify_cons (x : OrderItemId × Int) (updates : List (OrderItemId × Int))
    (k : OrderItemId) (i : OrderItem) :
    requantify updates k (requantify [x] k i) = requantify (x :: updates) k i := by
  simp only [requantify, lastQuantity?_cons]
  cases lastQuantity? updates k <;> rfl

/-- The book in which the updates have been made to the items of the order.  Items of other orders
stay, even if an update names them. -/
def requantified (b : OrderBook) (order : OrderId) (updates : List (OrderItemId × Int)) :
    OrderBook :=
  { b with items := b.items.mapValues fun k i =>
      if i.order = order then requantify updates k i else i }

/-- No update changes nothing. -/
theorem requantified_nil (b : OrderBook) (order : OrderId) : b.requantified order [] = b := by
  have hsame : (b.items.mapValues fun k i =>
      if i.order = order then requantify [] k i else i) = b.items :=
    Table.mapValues_eq_self fun k i _ => ite_self i
  rw [requantified, hsame]

/-- The first update is made before the others. -/
theorem requantified_cons (b : OrderBook) (order : OrderId) (x : OrderItemId × Int)
    (updates : List (OrderItemId × Int)) :
    (b.requantified order [x]).requantified order updates =
      b.requantified order (x :: updates) := by
  unfold requantified
  rw [Table.mapValues_mapValues]
  congr 2
  funext k i
  by_cases horder : i.order = order
  · have hkept : (requantify [x] k i).order = order := horder
    rw [if_pos horder, if_pos hkept, if_pos horder, requantify_cons]
  · rw [if_neg horder, if_neg horder, if_neg horder]

/-- Updates leave an order the items that it has. -/
theorem holds_requantified (b : OrderBook) (order : OrderId) (updates : List (OrderItemId × Int))
    (k : OrderItemId) : (b.requantified order updates).holds order k = b.holds order k := by
  unfold holds requantified
  rw [Table.get?_mapValues, Option.any_map]
  congr 1
  funext i
  simp only [requantify]
  split <;> rfl

/-- A quantity is changed where the order has the item, and the answer says whether it does. -/
theorem updateQuantity_eq (b : OrderBook) (order : OrderId) (item : OrderItemId) {quantity : Int}
    (hquantity : 0 < quantity) :
    b.updateQuantity order item quantity =
      .ok (b.holds order item, b.requantified order [(item, quantity)]) := by
  unfold updateQuantity holds requantified
  rw [if_neg (Int.not_le.mpr hquantity)]
  simp only [requantify_single]
  by_cases hthere : ∃ i, b.items.get? item = some i ∧ i.order = order
  · obtain ⟨i, hi, rfl⟩ := hthere
    have hchanged : b.items.insert item { i with quantity := quantity } =
        b.items.mapValues fun k j => if j.order = i.order then
          if k = item then { j with quantity := quantity } else j else j := by
      rw [Table.insert_eq_modify hi fun i => { i with quantity := quantity }, Table.modify]
      refine Table.mapValues_congr fun k j hj => ?_
      by_cases hk : k = item
      · rw [hk, hi] at hj
        cases hj
        rw [if_pos rfl]
      · rw [if_neg hk, ite_self]
    rw [← hchanged]
    simp only [hi, beq_self_eq_true, if_true, Option.any_some]
  · -- The order has no such item, and no row is another one afterwards.
    have hsame : (b.items.mapValues fun k i => if i.order = order then
        if k = item then { i with quantity := quantity } else i else i) = b.items := by
      refine Table.mapValues_eq_self fun k i hi => ?_
      split
      · rename_i horder
        refine if_neg fun hk => hthere ⟨i, ?_, horder⟩
        rw [← hk, hi]
      · rfl
    rw [hsame]
    cases hi : b.items.get? item with
    | none => rfl
    | some i =>
      have hother : (i.order == order) = false :=
        beq_eq_false_iff_ne.mpr fun horder => hthere ⟨i, hi, horder⟩
      simp only [hother, Bool.false_eq_true, if_false, Option.any_some]

/-- The items of the order that are named are deleted, and no others. -/
theorem deleteItems_eq (b : OrderBook) (order : OrderId) (ids : List OrderItemId) :
    b.deleteItems order ids =
      ((b.items.filter fun k i => i.order == order && ids.contains k).size,
        { b with items := b.items.filter fun k i => !(i.order == order && ids.contains k) }) := by
  have hrest : (b.items.filter fun k _ => !(b.items.filter fun k i =>
      i.order == order && ids.contains k).contains k) =
        b.items.filter fun k i => !(i.order == order && ids.contains k) := by
    refine Table.filter_congr fun k i hi => congrArg not ?_
    rw [Table.contains, Table.get?_filter, hi, Option.isSome_filter, Option.any_some]
  unfold deleteItems
  rw [← hrest]

end OrderBook

namespace Orders

variable {α : Type}

/-- So many quantities are changed as there are entries that name items of the order.  Changes of
quantities leave the order its items, so it does not matter which of them have been made before. -/
theorem run_updateEach (w : World) (order : OrderId) {updates : List (OrderItemId × Int)}
    (hpositive : ∀ x ∈ updates, 0 < x.2) :
    (updateEach order updates).run.run World.handle w =
      some (.ok (updates.countP fun x => w.store.book.holds order x.1),
        { w with store := { w.store with book := w.store.book.requantified order updates } }) := by
  induction updates generalizing w with
  | nil =>
    rw [OrderBook.requantified_nil]
    rfl
  | cons x updates ih =>
    obtain ⟨item, quantity⟩ := x
    let v : World := { w with store := { w.store with
      book := w.store.book.requantified order [(item, quantity)] } }
    have hcall : (Service.orders (.updateQuantity order item quantity)).run.run World.handle w =
        some (.ok (w.store.book.holds order item), v) := by
      rw [run_orders]
      simp only [OrderCall.step, Store.tryBook, w.store.book.updateQuantity_eq order item
        (hpositive _ List.mem_cons_self)]
      rfl
    have hrest := ih v fun y hy => hpositive y (List.mem_cons_of_mem _ hy)
    rw [updateEach, run_bind_of_ok hcall, run_bind_of_ok hrest, List.countP_cons]
    simp only [v, OrderBook.holds_requantified, OrderBook.requantified_cons]
    cases w.store.book.holds order item <;> rfl

/-- What is done with the basket under the buyer's lock.  The lock is taken and given back around
it, so that only the change of the book is left to be said. -/
theorem run_onBasket {body : Order → Service α} {r : Except Refusal α} (hfree : u ∉ w.locked)
    (b : OrderBook)
    (hbody : (body (w.store.book.getOrCreateBasket u w.clock).1).run.run World.handle
        { w with
          store := { w.store with book := (w.store.book.getOrCreateBasket u w.clock).2 }
          locked := u :: w.locked } =
      some (r, { w with store := { w.store with book := b }, locked := u :: w.locked })) :
    (Service.locked u (do
      let basket ← Service.orders (.basket u)
      body basket)).run.run World.handle w =
        some (r, { w with store := { w.store with book := b } }) := by
  refine run_locked hfree { w with store := { w.store with book := b } } ?_
  have hread : (Service.orders (.basket u)).run.run World.handle
      { w with locked := u :: w.locked } =
    some (.ok (w.store.book.getOrCreateBasket u w.clock).1, { w with
      store := { w.store with book := (w.store.book.getOrCreateBasket u w.clock).2 }
      locked := u :: w.locked }) := rfl
  rw [run_bind_of_ok hread]
  exact hbody

/-- The book with a basket of the buyer and with other items.  The basket is made by the first
request that asks for it, even if nothing comes of the request. -/
def editedBook (w : World) (u : UserId) (items : Table OrderItemId OrderItem) : OrderBook :=
  { (w.store.book.getOrCreateBasket u w.clock).2 with items := items }

/-- The updates are made to the items of the basket; those that name one count. -/
theorem run_update_eq (hfree : u ∉ w.locked) (hb : w.store.book.Lawful)
    (hitems : w.store.book.items.All fun _ i => w.store.book.orders.contains i.order = true)
    (inputs : List UpdateInput) :
    (update u inputs).run.run World.handle w =
      some (.ok ((inputs.filterMap UpdateInput.wellFormed?).countP fun x =>
          (w.store.book.items.get? x.1).any (w.store.book.inBasket u)),
        { w with store := { w.store with book := editedBook w u (w.store.book.items.mapValues
          fun k i => if w.store.book.inBasket u i then
            OrderBook.requantify (inputs.filterMap UpdateInput.wellFormed?) k i else i) } }) := by
  have hholds : ∀ k, (w.store.book.getOrCreateBasket u w.clock).2.holds
      (w.store.book.getOrCreateBasket u w.clock).1.id k =
        (w.store.book.items.get? k).any (w.store.book.inBasket u) := by
    intro k
    rw [OrderBook.holds, OrderBook.items_getOrCreateBasket]
    cases hi : w.store.book.items.get? k with
    | none => rfl
    | some i => exact OrderBook.inBasket_eq hb hitems w.clock hi
  have hbook : (w.store.book.getOrCreateBasket u w.clock).2.requantified
      (w.store.book.getOrCreateBasket u w.clock).1.id (inputs.filterMap UpdateInput.wellFormed?) =
        editedBook w u (w.store.book.items.mapValues fun k i => if w.store.book.inBasket u i then
          OrderBook.requantify (inputs.filterMap UpdateInput.wellFormed?) k i else i) := by
    unfold OrderBook.requantified editedBook
    rw [OrderBook.items_getOrCreateBasket]
    congr 1
    refine Table.mapValues_congr fun k i hi => ?_
    rw [← OrderBook.inBasket_eq hb hitems w.clock hi]
    simp only [beq_iff_eq]
  have hrun := run_updateEach { w with
    store := { w.store with book := (w.store.book.getOrCreateBasket u w.clock).2 }
    locked := u :: w.locked } (w.store.book.getOrCreateBasket u w.clock).1.id
    (UpdateInput.pos_of_mem_wellFormed inputs)
  simp only [hholds, hbook] at hrun
  exact run_onBasket hfree _ hrun

/-- The named items of the basket are taken out of it, and counted. -/
theorem run_remove_eq (hfree : u ∉ w.locked) (hb : w.store.book.Lawful)
    (hitems : w.store.book.items.All fun _ i => w.store.book.orders.contains i.order = true)
    (ids : List OrderItemId) :
    (remove u ids).run.run World.handle w =
      some (.ok (w.store.book.items.filter fun k i =>
          w.store.book.inBasket u i && ids.contains k).size,
        { w with store := { w.store with book := editedBook w u (w.store.book.items.filter
          fun k i => !(w.store.book.inBasket u i && ids.contains k)) } }) := by
  refine run_onBasket hfree _ ?_
  have hnamed : ∀ k i, w.store.book.items.get? k = some i →
      (i.order == (w.store.book.getOrCreateBasket u w.clock).1.id && ids.contains k) =
        (w.store.book.inBasket u i && ids.contains k) := fun k i hi => by
    rw [OrderBook.inBasket_eq hb hitems w.clock hi]
  have hdelete := OrderBook.deleteItems_eq (w.store.book.getOrCreateBasket u w.clock).2
    (w.store.book.getOrCreateBasket u w.clock).1.id ids
  rw [OrderBook.items_getOrCreateBasket, Table.filter_congr hnamed,
    Table.filter_congr fun k i hi => congrArg not (hnamed k i hi)] at hdelete
  cases ids with
  | nil =>
    -- Where no item is named, the storage is not asked at all.
    have hall : (w.store.book.items.filter fun k i =>
        !(w.store.book.inBasket u i && List.contains [] k)) = w.store.book.items :=
      Table.filter_eq_self fun k i _ => by rw [List.contains_nil, Bool.and_false, Bool.not_false]
    have hnone : (w.store.book.items.filter fun k i =>
        w.store.book.inBasket u i && List.contains [] k).size = 0 := by
      have hsplit := w.store.book.items.size_filter_add fun k i =>
        w.store.book.inBasket u i && List.contains [] k
      rw [hall] at hsplit
      omega
    rw [hall, hnone, editedBook, ← w.store.book.items_getOrCreateBasket u w.clock]
    rfl
  | cons id ids =>
    rw [List.isEmpty_cons, if_neg Bool.false_ne_true, run_orders]
    simp only [OrderCall.step, Store.onBook, hdelete]
    rfl

end Orders

namespace Pool

variable {P : Pool} {admitted : Program Unit → Prop}

/-- Every item belongs to an order that is there. -/
theorem Reachable.items_ordered (h : P.Reachable admitted) :
    P.world.store.book.items.All fun _ i => P.world.store.book.orders.contains i.order = true :=
  h.book.items.imp fun _ _ hi => hi.2.1

/-- Updates and removals of a basket pass over all that does not concern it.  An update counts the
entries that name an item of the basket and a quantity, both as positive integers; each item of the
basket then has the quantity of the last of these entries for it, or its old one.  A removal takes
away the items of the basket that are named, and counts them.  But for the basket, which may have
been made, nothing else is another, and no item has a quantity that is not positive.  As long as
something else is done for the buyer, both wait. -/
theorem Reachable.basket_edited_leniently (h : P.Reachable Program.ThroughServices) (u : UserId) :
    (u ∈ P.world.locked →
      (∀ inputs, (Orders.update u inputs).run.run World.handle P.world = none) ∧
        ∀ ids, (Orders.remove u ids).run.run World.handle P.world = none) ∧
    (u ∉ P.world.locked →
    (∀ inputs : List UpdateInput, ∃ n items,
      (Orders.update u inputs).run.run World.handle P.world = some (.ok n,
        { P.world with store := { P.world.store with book :=
          { (P.world.store.book.getOrCreateBasket u P.world.clock).2 with items := items } } }) ∧
      (∀ input x, UpdateInput.wellFormed? input = some x ↔ ∃ v q, input.id = some v ∧
        v.IsPositive x.1.value ∧ input.quantity = some q ∧ q.IsPositive x.2) ∧
      n = ((inputs.filterMap UpdateInput.wellFormed?).countP fun x =>
        (P.world.store.book.items.get? x.1).any (P.world.store.book.inBasket u)) ∧
      items = (P.world.store.book.items.mapValues fun k i =>
        if P.world.store.book.inBasket u i then
          { i with quantity := (OrderBook.lastQuantity?
              (inputs.filterMap UpdateInput.wellFormed?) k).getD i.quantity }
        else i) ∧
      items.All fun _ i => 0 < i.quantity) ∧
    ∀ ids : List OrderItemId, ∃ n items,
      (Orders.remove u ids).run.run World.handle P.world = some (.ok n,
        { P.world with store := { P.world.store with book :=
          { (P.world.store.book.getOrCreateBasket u P.world.clock).2 with items := items } } }) ∧
      items = (P.world.store.book.items.filter fun k i =>
        !(P.world.store.book.inBasket u i && ids.contains k)) ∧
      n + items.size = P.world.store.book.items.size ∧
      items.All fun _ i => 0 < i.quantity) := by
  have hpositive : P.world.store.book.items.All fun _ i => 0 < i.quantity :=
    h.book.items.imp fun _ _ hi => hi.2.2.1
  refine ⟨fun hheld => ⟨fun _ => Orders.run_locked_of_held _ hheld,
    fun _ => Orders.run_locked_of_held _ hheld⟩, fun hfree => ⟨?_, ?_⟩⟩
  · intro inputs
    refine ⟨_, _, Orders.run_update_eq hfree h.lawful h.items_ordered inputs,
      fun _ _ => UpdateInput.wellFormed?_eq_some_iff, rfl, rfl, ?_⟩
    intro k i' hi'
    rw [Table.get?_mapValues, Option.map_eq_some_iff] at hi'
    obtain ⟨i, hi, rfl⟩ := hi'
    split
    · exact OrderBook.requantify_pos (UpdateInput.pos_of_mem_wellFormed inputs) (hpositive k i hi) k
    · exact hpositive k i hi
  · intro ids
    exact ⟨_, _, Orders.run_remove_eq hfree h.lawful h.items_ordered ids, rfl,
      Table.size_filter_add _ _, hpositive.filter _⟩

/-- Among changes of the item in the basket stand one of another buyer's item and one that is not
well formed, and the item is changed and named twice. -/
theorem Reachable.basket_edited_leniently_by_laterBuyer : ∃ P : Pool,
    P.Reachable Program.ThroughServices ∧ ⟨7⟩ ∉ P.world.locked ∧
      P.world.store.book.items.values = [⟨⟨1⟩, ⟨1⟩, ⟨1⟩, ⟨1⟩, 3⟩, ⟨⟨2⟩, ⟨2⟩, ⟨1⟩, ⟨1⟩, 2⟩] ∧
      (∃ w, (Orders.update ⟨7⟩ [⟨some (.int 1), some (.int 5)⟩, ⟨some (.int 2), some (.int 9)⟩,
            ⟨some (.text "1"), some (.int 6)⟩, ⟨some (.int 1), some (.int 4)⟩]).run.run World.handle
              P.world = some (.ok 2, w) ∧
        w.store.book.items.values = [⟨⟨1⟩, ⟨1⟩, ⟨1⟩, ⟨1⟩, 4⟩, ⟨⟨2⟩, ⟨2⟩, ⟨1⟩, ⟨1⟩, 2⟩]) ∧
      ∃ w, (Orders.remove ⟨7⟩ [⟨1⟩, ⟨2⟩, ⟨1⟩]).run.run World.handle P.world = some (.ok 1, w) ∧
        w.store.book.items.values = [⟨⟨2⟩, ⟨2⟩, ⟨1⟩, ⟨1⟩, 2⟩] := by
  have hadmitted : ∀ p ∈ laterBuyer, p.ThroughServices :=
    List.forall_mem_append.mpr ⟨throughServices_phoneOrder, List.forall_mem_singleton.mpr
      (.errand ⟨8⟩ (.add [⟨some (.int 1), some (.int 2)⟩]) fun _ => .done ())⟩
  let inputs : List UpdateInput := [⟨some (.int 1), some (.int 5)⟩, ⟨some (.int 2), some (.int 9)⟩,
    ⟨some (.text "1"), some (.int 6)⟩, ⟨some (.int 1), some (.int 4)⟩]
  have hplay : (Pool.play (basketSteps ++ List.replicate 5 4)
      ⟨.start ⟨0, 0⟩ 3, laterBuyer.map .start⟩).any (fun P =>
        P.world.locked.isEmpty && decide (
          P.world.store.book.items.values = [⟨⟨1⟩, ⟨1⟩, ⟨1⟩, ⟨1⟩, 3⟩, ⟨⟨2⟩, ⟨2⟩, ⟨1⟩, ⟨1⟩, 2⟩] ∧
          ((inputs.filterMap UpdateInput.wellFormed?).countP fun x =>
            (P.world.store.book.items.get? x.1).any (P.world.store.book.inBasket ⟨7⟩)) = 2 ∧
          (P.world.store.book.items.mapValues fun k i => if P.world.store.book.inBasket ⟨7⟩ i then
            { i with quantity := (OrderBook.lastQuantity?
              (inputs.filterMap UpdateInput.wellFormed?) k).getD i.quantity } else i).values =
                [⟨⟨1⟩, ⟨1⟩, ⟨1⟩, ⟨1⟩, 4⟩, ⟨⟨2⟩, ⟨2⟩, ⟨1⟩, ⟨1⟩, 2⟩] ∧
          (P.world.store.book.items.filter fun k i => !(P.world.store.book.inBasket ⟨7⟩ i &&
            [⟨1⟩, ⟨2⟩, ⟨1⟩].contains k)).values = [⟨⟨2⟩, ⟨2⟩, ⟨1⟩, ⟨1⟩, 2⟩])) = true := by
    decide +kernel
  obtain ⟨P, hP, hfacts⟩ := (Option.any_eq_true _ _).mp hplay
  simp only [Bool.and_eq_true, List.isEmpty_iff, decide_eq_true_eq] at hfacts
  obtain ⟨hlocked, hvalues, hcount, hupdated, hremoved⟩ := hfacts
  have hreach := (Reachable.begin ⟨0, 0⟩ 3 hadmitted).play hP
  have hfree : (⟨7⟩ : UserId) ∉ P.world.locked := by simp [hlocked]
  obtain ⟨hupdate, hremove⟩ := (hreach.basket_edited_leniently ⟨7⟩).2 hfree
  obtain ⟨n, items, hrun, -, rfl, rfl, -⟩ := hupdate inputs
  obtain ⟨m, items, hrun', rfl, hsize, -⟩ := hremove [⟨1⟩, ⟨2⟩, ⟨1⟩]
  have hm : m = 1 := by
    have hbefore := congrArg List.length hvalues
    have hafter := congrArg List.length hremoved
    simp only [Table.values, List.length_map, List.length_cons, List.length_nil] at hbefore hafter
    simp only [Table.size] at hsize
    omega
  exact ⟨P, hreach, hfree, hvalues, ⟨_, hcount ▸ hrun, hupdated⟩, _, hm ▸ hrun', hremoved⟩

end Pool

end Marketplace
