import Marketplace.Proofs.Storage.Effect
set_option autoImplicit false

/-!
# How the order book changes

`OrderBook.Change` lists all that a call, up to its second half, can do to orders, items and
contacts.  From it follow the invariant of the book by itself, `OrderBook.Lawful`, and what becomes
of an order, `Order.Becomes`: these hold whatever programs run.

A change tells what the call has found as well as what it has made of it.  Later results ask just
that: what an order was before it was placed, or whose a contact was before it was deleted.
-/

namespace Marketplace

/-! ## Orders -/

/-- Only a basket can become a new order, and nothing else becomes one. -/
theorem OrderStatus.become_new_iff {s t : OrderStatus} :
    s.become .new = .ok t ↔ s = .basket ∧ t = .new := by
  constructor
  · intro h
    cases s <;> cases h
    exact ⟨rfl, rfl⟩
  · rintro ⟨rfl, rfl⟩
    rfl

theorem OrderStatus.become_new_error {s : OrderStatus} (h : s ≠ .basket) :
    ∃ detail, s.become .new = .error (.invalidTransition detail) := by
  cases s <;> first | exact absurd rfl h | exact ⟨_, rfl⟩

namespace Order

theorem isBasket_iff {o : Order} : o.isBasket = true ↔ o.status = .basket := by
  simp [isBasket]

/-- The order once it is placed for the contact.  Its identifier, its buyer and the time of its
making stay, so that it can be found and owned as before. -/
def placed (o : Order) (contact : ContactId) : Order :=
  { o with status := .new, contact := some contact }

/-- Placing an order makes of a basket the placed order, and does nothing to any other. -/
theorem place_ok_iff {o p : Order} {contact : ContactId} :
    o.place contact = .ok p ↔ o.isBasket = true ∧ p = o.placed contact := by
  rw [isBasket_iff]
  constructor
  · intro h
    obtain ⟨s, hs, rfl⟩ := place_ok h
    obtain ⟨hbasket, rfl⟩ := OrderStatus.become_new_iff.mp hs
    exact ⟨hbasket, rfl⟩
  · rintro ⟨hbasket, rfl⟩
    have hnew : o.status.become .new = .ok .new := OrderStatus.become_new_iff.mpr ⟨hbasket, rfl⟩
    simp only [place, hnew]
    rfl

/-- The order without its contact, if that is one of those that are taken off orders.  Only the
contact goes: an order that has been placed stays placed, even without one. -/
def cleared (o : Order) (doomed : Table ContactId Contact) : Order :=
  if o.contact.any doomed.contains then { o with contact := none } else o

/-- An order that loses its contact is a basket just if it was one. -/
theorem isBasket_cleared (o : Order) (doomed : Table ContactId Contact) :
    (o.cleared doomed).isBasket = o.isBasket := by
  unfold cleared
  split <;> rfl

/-- The second order is the first one at a later time: it may have been placed in between.  This is
a preorder, so that it goes from one step to a whole run; what an order never is again, a basket
once it has been placed, is read off the field `status`. -/
structure Becomes (o o' : Order) : Prop where
  id : o'.id = o.id
  buyer : o'.buyer = o.buyer
  createdAt : o'.createdAt = o.createdAt
  status : o'.status = o.status ∨ o.status = .basket ∧ o'.status = .new

namespace Becomes

variable {o o' o'' : Order}

/-- Where nothing happens, an order is what it was. -/
theorem refl (o : Order) : o.Becomes o := ⟨rfl, rfl, rfl, Or.inl rfl⟩

/-- What becomes of an order in two steps is what may become of it in one, since nothing becomes a
basket again. -/
theorem trans (h : o.Becomes o') (h' : o'.Becomes o'') : o.Becomes o'' where
  id := h'.id.trans h.id
  buyer := h'.buyer.trans h.buyer
  createdAt := h'.createdAt.trans h.createdAt
  status := by
    rcases h.status with hsame | ⟨hbasket, hnew⟩
    · rw [← hsame]
      exact h'.status
    · rcases h'.status with hsame' | ⟨hbasket', -⟩
      · exact Or.inr ⟨hbasket, hsame'.trans hnew⟩
      · rw [hnew] at hbasket'
        cases hbasket'

theorem cleared (o : Order) (doomed : Table ContactId Contact) : o.Becomes (o.cleared doomed) := by
  unfold Order.cleared
  split <;> exact ⟨rfl, rfl, rfl, Or.inl rfl⟩

/-- Once placed, always placed. -/
theorem status_ne_basket (h : o.Becomes o') (ho : o.status ≠ .basket) : o'.status ≠ .basket := by
  rcases h.status with hsame | ⟨hbasket, -⟩
  · rwa [hsame]
  · exact absurd hbasket ho

end Becomes

end Order

/-- The order whose items the call is to change.  Calls that change items name the order, so what
happens to one order can be followed without looking at the others. -/
def Call.itemsOf? : Call → Option OrderId
  | .store (.orders (.insertItem order _ _ _)) => some order
  | .store (.orders (.updateQuantity order _ _)) => some order
  | .store (.orders (.deleteItems order _)) => some order
  | _ => none

namespace OrderBook

variable {listed : ListingId → Bool} {b b' b'' : OrderBook} {c : Call}

/-! ## What calls do

One case for each change, with what the call has found in the book.  All later results about calls
split these cases instead of unfolding the calls, so a call that comes to be answered in another way
is a matter for `Change.of_act` alone.
-/

/-- The book as a call leaves it, up to its second half; `listed` says which listings there are. -/
inductive Change (listed : ListingId → Bool) (b : OrderBook) : Call → OrderBook → Prop
  /-- The call only reads, or does not do what it was asked for. -/
  | same (c : Call) : Change listed b c b
  | basket {buyer : UserId} {now : Instant} (hnone : b.basket? buyer = none) :
    Change listed b (.store (.orders (.basket buyer)))
      { b with
        orders := b.orders.insert ⟨b.lastOrder + 1⟩ (.newBasket ⟨b.lastOrder + 1⟩ buyer now)
        lastOrder := b.lastOrder + 1 }
  | insertItem {order : OrderId} {listing : ListingId} {shop : ShopId} {quantity : Int}
      {i : OrderItem} {b' : OrderBook}
      (hi : b.insertItem listed order listing shop quantity = .ok (i, b')) :
    Change listed b (.store (.orders (.insertItem order listing shop quantity))) b'
  | updateQuantity {order : OrderId} {item : OrderItemId} {quantity : Int} {i : OrderItem}
      (hi : b.items.get? item = some i) (horder : i.order = order) :
    Change listed b (.store (.orders (.updateQuantity order item quantity)))
      { b with items := b.items.insert item { i with quantity := quantity } }
  | deleteItems {order : OrderId} {ids : List OrderItemId} :
    Change listed b (.store (.orders (.deleteItems order ids))) (b.deleteItems order ids).2
  | place {order : OrderId} {contact : ContactId} {o : Order} (ho : b.orders.get? order = some o)
      (hbasket : o.isBasket = true) (hcontact : b.contacts.contains contact = true) :
    Change listed b (.store (.orders (.place order contact)))
      { b with orders := b.orders.insert order (o.placed contact) }
  | insertContact {user : UserId} {address : Address} :
    Change listed b (.store (.contacts (.insert user address))) (b.insertContact user address).2
  | updateContact {user : UserId} {id : ContactId} {patch : AddressInput} {x : Contact}
      {address : Address} (hx : b.contacts.get? id = some x) :
    Change listed b (.store (.contacts (.update user id patch)))
      { b with contacts := b.contacts.insert id { x with address := address } }
  | dropContacts {user : UserId} {ids : List ContactId} :
    Change listed b (.store (.contacts (.delete user ids)))
      (b.dropContacts (b.ownContacts user ids))

namespace Change

/-- A call of orders either fails, and then leaves the book alone, or is one of the cases. -/
theorem of_orders (s : Store) (now : Instant) (c : OrderCall) :
    s.book.Change s.catalog.listings.contains (.store (.orders c)) (c.step s now).2.book := by
  cases c with
  | basket buyer =>
    simp only [OrderCall.step, Store.onBook, getOrCreateBasket]
    cases hbasket : s.book.basket? buyer with
    | some o => exact same _
    | none => exact basket hbasket
  | insertItem order listing shop quantity =>
    simp only [OrderCall.step, Store.tryBook]
    split
    · exact same _
    · rename_i i b hi
      exact insertItem hi
  | updateQuantity order item quantity =>
    simp only [OrderCall.step, Store.tryBook, OrderBook.updateQuantity]
    by_cases hquantity : quantity ≤ 0
    · rw [if_pos hquantity]
      exact same _
    · rw [if_neg hquantity]
      cases hi : s.book.items.get? item with
      | none => exact same _
      | some i =>
        by_cases horder : i.order = order
        · subst horder
          simp only [beq_self_eq_true, if_true]
          exact updateQuantity hi rfl
        · simp only [beq_eq_false_iff_ne.mpr horder, Bool.false_eq_true, if_false]
          exact same _
  | deleteItems order ids => exact deleteItems
  | place order contact =>
    simp only [OrderCall.step, Store.tryBook, placeOrder]
    cases hcontact : s.book.contacts.contains contact with
    | false => exact same _
    | true =>
      cases ho : s.book.orders.get? order with
      | none => exact same _
      | some o =>
        cases hplace : o.place contact with
        | error r =>
          simp only [hplace]
          exact same _
        | ok p =>
          obtain ⟨hbasket, rfl⟩ := Order.place_ok_iff.mp hplace
          simp only [hplace]
          exact place ho hbasket hcontact
  | order _ => exact same _
  | itemCount _ => exact same _
  | detail _ => exact same _
  | ofBuyer _ => exact same _
  | ofShop _ => exact same _

/-- A contact is changed if it is there and its owner's, and a change that is refused changes
nothing. -/
theorem updateContact_of (user : UserId) (id : ContactId) (patch : AddressInput) :
    b.Change listed (.store (.contacts (.update user id patch)))
      (b.updateContact user id patch).2 := by
  simp only [OrderBook.updateContact]
  cases hx : b.contact? user id with
  | none => exact same _
  | some x => exact updateContact (Option.filter_eq_some_iff.mp hx).1

/-- What the book is like when a call has been answered.  Catalog, jobs and mail have no part in it;
a deletion of contacts is answered when the contacts are gone, and orders lose them in the second
half. -/
theorem of_act {w w' : World} {r : c.Reply} {m : Option Remainder}
    (h : w.act c = some (r, w', m)) :
    w.store.book.Change w.store.catalog.listings.contains c w'.store.book := by
  cases c with
  | store c =>
    cases c with
    | catalog c =>
      simp only [World.act, World.handle, StoreCall.step, Option.map_map,
        Option.map_eq_some_iff] at h
      obtain ⟨⟨a, t⟩, ha, heq⟩ := h
      cases heq
      rcases CatalogCall.step_cases ha with ⟨-, -, rfl⟩ | ⟨_, _, -, -, rfl⟩ | ⟨-, rfl⟩ <;>
        exact same _
    | draft c =>
      by_cases hc : c = .commit
      · subst hc
        simp only [World.act] at h
        split at h
        · cases h
          exact same _
        · rename_i hdraft
          cases h
          simp only [Store.publish, hdraft]
          exact same _
      · have hbook : (c.step w.store).2.book = w.store.book := by
          rcases DraftCall.step_cases w.store hc with hsame | ⟨d, e, a, hs, -, hstep⟩
          · rw [hsame]
          · rw [hstep]
            rfl
        have hsame : w.store.book.Change w.store.catalog.listings.contains
            (.store (.draft c)) (c.step w.store).2.book := hbook ▸ same _
        cases c with
        | commit => exact absurd rfl hc
        | _ => cases h; exact hsame
    | orders c =>
      cases h
      exact of_orders w.store w.clock c
    | contacts c =>
      cases c with
      | delete user ids => cases h; exact dropContacts
      | insert user address => cases h; exact insertContact
      | update user id patch => cases h; exact updateContact_of user id patch
      | all _ => cases h; exact same _
      | one _ _ => cases h; exact same _
  | lock buyer =>
    simp only [World.act, World.handle] at h
    split at h
    · cases h
    · cases h
      exact same _
  | discard => cases h; exact same _
  | remember _ => cases h; exact same _
  | job _ => cases h; exact same _
  | send _ => cases h; exact same _
  | account _ => cases h; exact same _
  | now => cases h; exact same _
  | newJobId => cases h; exact same _
  | read _ => cases h; exact same _
  | unlock _ => cases h; exact same _

end Change

/-! ## The invariant of the book -/

/-- Identifiers are not ahead of their counters, every order is a basket without a contact or has
been placed, and a buyer has one basket at most.  The first of these makes a new identifier one that
no row has, and the last makes the basket of a buyer a single order. -/
structure Lawful (b : OrderBook) : Prop where
  orders : b.orders.All fun id o => o.id = id ∧ id.value ≤ b.lastOrder ∧
    (o.status = .basket ∧ o.contact = none ∨ o.status = .new)
  baskets : ∀ id id' o o', b.orders.get? id = some o → b.orders.get? id' = some o' →
    o.isBasket = true → o'.isBasket = true → o.buyer = o'.buyer → id = id'
  items : b.items.All fun k _ => k.value ≤ b.lastItem
  contacts : b.contacts.All fun id _ => id.value ≤ b.lastContact

/-- Every order of the first book is in the second one, at the same or a later time of its life.
Orders are never taken out of the book, so this holds of any two books of one run. -/
def KeepsOrders (b b' : OrderBook) : Prop :=
  ∀ id o, b.orders.get? id = some o → ∃ o', b'.orders.get? id = some o' ∧ o.Becomes o'

/-- A call that does not touch the orders keeps them. -/
theorem KeepsOrders.of_eq (h : b'.orders = b.orders) : b.KeepsOrders b' := by
  intro id o ho
  exact ⟨o, by rw [h, ho], .refl o⟩

/-- Orders that are kept twice are kept. -/
theorem KeepsOrders.trans (h : b.KeepsOrders b') (h' : b'.KeepsOrders b'') :
    b.KeepsOrders b'' := by
  intro id o ho
  obtain ⟨o', ho', hbecomes⟩ := h id o ho
  obtain ⟨o'', ho'', hbecomes'⟩ := h' id o' ho'
  exact ⟨o'', ho'', hbecomes.trans hbecomes'⟩

/-- A buyer who has no basket owns none of the orders that are one. -/
theorem buyer_ne_of_basket?_eq_none {buyer : UserId} (h : b.basket? buyer = none) {id : OrderId}
    {o : Order} (ho : b.orders.get? id = some o) (hbasket : o.isBasket = true) :
    o.buyer ≠ buyer := by
  intro hbuyer
  have hnone := List.find?_eq_none.mp h o (Table.mem_values_iff.mpr ⟨id, ho⟩)
  simp [hbuyer, hbasket] at hnone

/-- The basket that a buyer is given is one of the book's, and the buyer's. -/
theorem basket?_eq_some (hb : b.Lawful) {buyer : UserId} {o : Order}
    (h : b.basket? buyer = some o) :
    b.orders.get? o.id = some o ∧ o.buyer = buyer ∧ o.isBasket = true := by
  obtain ⟨id, ho⟩ := Table.mem_values_iff.mp (List.mem_of_find?_eq_some h)
  have htest := List.find?_some h
  simp only [Bool.and_eq_true, beq_iff_eq] at htest
  rw [(hb.orders id o ho).1]
  exact ⟨ho, htest⟩

/-- Whoever asks for a basket is given one of the buyer's that is in the book afterwards, whether it
has been there before or has just been made. -/
theorem getOrCreateBasket_spec (hb : b.Lawful) (buyer : UserId) (now : Instant) :
    (b.getOrCreateBasket buyer now).2.orders.get? (b.getOrCreateBasket buyer now).1.id =
        some (b.getOrCreateBasket buyer now).1 ∧
      (b.getOrCreateBasket buyer now).1.buyer = buyer ∧
      (b.getOrCreateBasket buyer now).1.isBasket = true := by
  unfold getOrCreateBasket
  split
  · rename_i o ho
    exact basket?_eq_some hb ho
  · exact ⟨by rw [Table.get?_insert, if_pos rfl], rfl, rfl⟩

theorem get?_clearContacts (b : OrderBook) (doomed : Table ContactId Contact) (id : OrderId) :
    (b.clearContacts doomed).orders.get? id = (b.orders.get? id).map (·.cleared doomed) :=
  Table.get?_mapValues _ _ _

theorem cleared_of_get? {doomed : Table ContactId Contact} {id : OrderId} {o' : Order}
    (h : (b.clearContacts doomed).orders.get? id = some o') :
    ∃ o, b.orders.get? id = some o ∧ o.cleared doomed = o' := by
  rw [get?_clearContacts, Option.map_eq_some_iff] at h
  exact h

namespace Lawful

theorem empty : OrderBook.empty.Lawful where
  orders := .empty
  baskets := by
    intro id id' o o' ho
    cases ho
  items := .empty
  contacts := .empty

/-- Where the baskets of the second book are baskets of the first one, a buyer still has one at
most.  Most changes make no basket, and this is then all that there is to show. -/
theorem baskets_of (hb : b.Lawful)
    (h : ∀ id o', b'.orders.get? id = some o' → o'.isBasket = true →
      ∃ o, b.orders.get? id = some o ∧ o.isBasket = true ∧ o.buyer = o'.buyer) :
    ∀ id id' o o', b'.orders.get? id = some o → b'.orders.get? id' = some o' →
      o.isBasket = true → o'.isBasket = true → o.buyer = o'.buyer → id = id' := by
  intro id id' o o' ho ho' hbasket hbasket' hbuyer
  obtain ⟨p, hp, hpbasket, hpbuyer⟩ := h id o ho hbasket
  obtain ⟨p', hp', hpbasket', hpbuyer'⟩ := h id' o' ho' hbasket'
  exact hb.baskets id id' p p' hp hp' hpbasket hpbasket' (by rw [hpbuyer, hpbuyer', hbuyer])

/-- The next identifier is that of no order, for none is ahead of the counter. -/
theorem order_fresh (hb : b.Lawful) : b.orders.get? ⟨b.lastOrder + 1⟩ = none := by
  cases ho : b.orders.get? ⟨b.lastOrder + 1⟩ with
  | none => rfl
  | some o =>
    have hle := (hb.orders _ o ho).2.1
    simp only at hle
    omega

/-- Nor is the next number that of an item. -/
theorem item_fresh (hb : b.Lawful) : b.items.get? ⟨b.lastItem + 1⟩ = none := by
  cases hi : b.items.get? ⟨b.lastItem + 1⟩ with
  | none => rfl
  | some i =>
    have hle := hb.items _ i hi
    simp only at hle
    omega

/-- A new basket for a buyer who has none.  Its identifier is new, so it takes no other order's
place; and as the buyer has no other basket, there is still one at most. -/
theorem addBasket (hb : b.Lawful) {buyer : UserId} (now : Instant)
    (hnone : b.basket? buyer = none) :
    Lawful { b with
      orders := b.orders.insert ⟨b.lastOrder + 1⟩ (.newBasket ⟨b.lastOrder + 1⟩ buyer now)
      lastOrder := b.lastOrder + 1 } where
  orders := by
    refine Table.All.insert ?_ ⟨rfl, Int.le_refl _, Or.inl ⟨rfl, rfl⟩⟩
    refine hb.orders.imp fun id o ho => ⟨ho.1, ?_, ho.2.2⟩
    have hle := ho.2.1
    simp only
    omega
  baskets := by
    intro id id' o o' ho ho' hbasket hbasket' hbuyer
    simp only [Table.get?_insert] at ho ho'
    split at ho <;> split at ho'
    · rename_i hid hid'
      rw [← hid, ← hid']
    · cases ho
      exact absurd hbuyer.symm (buyer_ne_of_basket?_eq_none hnone ho' hbasket')
    · cases ho'
      exact absurd hbuyer (buyer_ne_of_basket?_eq_none hnone ho hbasket)
    · exact hb.baskets id id' o o' ho ho' hbasket hbasket' hbuyer
  items := hb.items
  contacts := hb.contacts

/-- An order that is placed is a basket no more, so baskets can only become fewer. -/
theorem place (hb : b.Lawful) {order : OrderId} {contact : ContactId} {o : Order}
    (ho : b.orders.get? order = some o) :
    Lawful { b with orders := b.orders.insert order (o.placed contact) } where
  orders := by
    obtain ⟨hid, hle, -⟩ := hb.orders order o ho
    exact hb.orders.insert ⟨hid, hle, Or.inr rfl⟩
  baskets := by
    refine hb.baskets_of fun id p hp hbasket => ?_
    simp only [Table.get?_insert] at hp
    split at hp
    · cases hp
      cases hbasket
    · exact ⟨p, hp, hbasket, rfl⟩
  items := hb.items
  contacts := hb.contacts

/-- Items that are changed, or taken away, are under their old identifiers. -/
theorem setItems (hb : b.Lawful) {items : Table OrderItemId OrderItem}
    (h : items.All fun k _ => k.value ≤ b.lastItem) : Lawful { b with items := items } :=
  ⟨hb.orders, hb.baskets, h, hb.contacts⟩

/-- A call keeps the book lawful: the cases that touch orders are those of the lemmas above, the
others change items or contacts only. -/
theorem change (hb : b.Lawful) (h : b.Change listed c b') : b'.Lawful := by
  cases h with
  | same => exact hb
  | basket hnone => exact hb.addBasket _ hnone
  | insertItem hi =>
    obtain ⟨-, -, -, rfl, rfl⟩ := insertItem_ok hi
    refine ⟨hb.orders, hb.baskets, ?_, hb.contacts⟩
    refine Table.All.insert ?_ (Int.le_refl _)
    refine hb.items.imp fun k i hle => ?_
    simp only
    omega
  | updateQuantity hi horder => exact hb.setItems (hb.items.insert (hb.items _ _ hi))
  | deleteItems => exact hb.setItems (hb.items.filter _)
  | place ho hbasket hcontact => exact hb.place ho
  | insertContact =>
    refine ⟨hb.orders, hb.baskets, hb.items, ?_⟩
    refine Table.All.insert ?_ (Int.le_refl _)
    refine hb.contacts.imp fun id x hle => ?_
    simp only [OrderBook.insertContact]
    omega
  | updateContact hx =>
    exact ⟨hb.orders, hb.baskets, hb.items, hb.contacts.insert (hb.contacts _ _ hx)⟩
  | dropContacts => exact ⟨hb.orders, hb.baskets, hb.items, hb.contacts.filter _⟩

/-- Items that go leave the rest as it was. -/
theorem dropUnlisted (hb : b.Lawful) (listed : ListingId → Bool) : (b.dropUnlisted listed).Lawful :=
  hb.setItems (hb.items.filter _)

/-- The second half of a deletion of contacts keeps the book lawful, for orders keep their
status. -/
theorem clearContacts (hb : b.Lawful) (doomed : Table ContactId Contact) :
    (b.clearContacts doomed).Lawful where
  orders := by
    intro id o' ho'
    obtain ⟨o, ho, rfl⟩ := cleared_of_get? ho'
    obtain ⟨hid, hle, hstatus⟩ := hb.orders id o ho
    have hbecomes := Order.Becomes.cleared o doomed
    refine ⟨hbecomes.id.trans hid, hle, ?_⟩
    unfold Order.cleared
    split
    · exact hstatus.imp (fun h => ⟨h.1, rfl⟩) fun h => h
    · exact hstatus
  baskets := by
    refine hb.baskets_of fun id o' ho' hbasket => ?_
    obtain ⟨o, ho, rfl⟩ := cleared_of_get? ho'
    rw [o.isBasket_cleared doomed] at hbasket
    exact ⟨o, ho, hbasket, (Order.Becomes.cleared o doomed).buyer.symm⟩
  items := hb.items
  contacts := hb.contacts

end Lawful

/-! ## What becomes of orders, items and contacts -/

/-- Orders without their contacts are still there. -/
theorem keepsOrders_clearContacts (b : OrderBook) (doomed : Table ContactId Contact) :
    b.KeepsOrders (b.clearContacts doomed) := by
  intro id o ho
  exact ⟨o.cleared doomed, by rw [get?_clearContacts, ho]; rfl, .cleared o doomed⟩

/-- The second book has the same items of the order as the first one, under the same identifiers and
with the same quantities, and no others. -/
def SameItems (b b' : OrderBook) (order : OrderId) : Prop :=
  ∀ k i, i.order = order → (b'.items.get? k = some i ↔ b.items.get? k = some i)

theorem SameItems.of_eq {order : OrderId} (h : b'.items = b.items) : b.SameItems b' order := by
  intro k i _
  rw [h]

namespace Change

/-- Orders stay, and only being placed changes the status of one.  That a placing is of this very
order is said of the call, since the call names it. -/
theorem order (h : b.Change listed c b') (hb : b.Lawful) {id : OrderId} {o : Order}
    (ho : b.orders.get? id = some o) :
    ∃ o', b'.orders.get? id = some o' ∧ o.Becomes o' ∧
      (o'.isBasket = o.isBasket ∨ ∃ contact, c = .store (.orders (.place id contact))) := by
  cases h with
  | basket hnone =>
    have hne : (⟨b.lastOrder + 1⟩ : OrderId) ≠ id := by
      rintro rfl
      rw [hb.order_fresh] at ho
      cases ho
    exact ⟨o, by simp only [Table.get?_insert, if_neg hne, ho], .refl o, Or.inl rfl⟩
  | insertItem hi =>
    obtain ⟨-, -, -, rfl, rfl⟩ := insertItem_ok hi
    exact ⟨o, ho, .refl o, Or.inl rfl⟩
  | @place order contact p hp hbasket hcontact =>
    by_cases hid : order = id
    · subst hid
      rw [hp] at ho
      cases ho
      refine ⟨o.placed contact, by simp, ⟨rfl, rfl, rfl, Or.inr ⟨?_, rfl⟩⟩, Or.inr ⟨_, rfl⟩⟩
      exact Order.isBasket_iff.mp hbasket
    · exact ⟨o, by simp only [Table.get?_insert, if_neg hid, ho], .refl o, Or.inl rfl⟩
  | _ => exact ⟨o, ho, .refl o, Or.inl rfl⟩

theorem keepsOrders (h : b.Change listed c b') (hb : b.Lawful) : b.KeepsOrders b' := by
  intro id o ho
  obtain ⟨o', ho', hbecomes, -⟩ := h.order hb ho
  exact ⟨o', ho', hbecomes⟩

/-- Items of an order stay as they are, unless the call is to change just these. -/
theorem sameItems (h : b.Change listed c b') (hb : b.Lawful) {order : OrderId}
    (hc : c.itemsOf? ≠ some order) : b.SameItems b' order := by
  cases h with
  | @insertItem id listing shop quantity i b' hi =>
    obtain ⟨-, -, -, rfl, rfl⟩ := insertItem_ok hi
    intro k j hj
    simp only [Table.get?_insert]
    split
    · rename_i hk
      subst hk
      rw [hb.item_fresh]
      constructor
      · intro heq
        cases heq
        exact absurd (congrArg some hj) hc
      · intro heq
        cases heq
    · rfl
  | @updateQuantity id item quantity i hi horder =>
    intro k j hj
    have hne : i.order ≠ order := by
      rintro rfl
      exact hc (congrArg some horder.symm)
    simp only [Table.get?_insert]
    split
    · rename_i hk
      subst hk
      rw [hi]
      constructor
      · intro heq
        cases heq
        exact absurd hj hne
      · intro heq
        cases heq
        exact absurd hj hne
    · rfl
  | @deleteItems id ids =>
    intro k j hj
    have hne : id ≠ order := fun h => hc (congrArg some h)
    simp only [OrderBook.deleteItems, Table.get?_filter_eq_some_iff]
    refine ⟨And.left, fun hold => ⟨hold, ?_⟩⟩
    simp [Table.contains, Table.get?_filter, hold, hj, Ne.symm hne]
  | _ => exact .of_eq rfl

/-- No contact gets another owner. -/
theorem contact_owner (h : b.Change listed c b') {id : ContactId} {x' : Contact}
    (hid : id.value ≤ b.lastContact) (hx' : b'.contacts.get? id = some x') :
    ∃ x, b.contacts.get? id = some x ∧ x.user = x'.user := by
  cases h with
  | insertItem hi =>
    obtain ⟨-, -, -, rfl, rfl⟩ := insertItem_ok hi
    exact ⟨x', hx', rfl⟩
  | insertContact =>
    have hne : (⟨b.lastContact + 1⟩ : ContactId) ≠ id := by
      rintro rfl
      simp only at hid
      omega
    simp only [OrderBook.insertContact, Table.get?_insert, if_neg hne] at hx'
    exact ⟨x', hx', rfl⟩
  | @updateContact user key patch x address hx =>
    simp only [Table.get?_insert] at hx'
    split at hx'
    · rename_i hkey
      subst hkey
      cases hx'
      exact ⟨x, hx, rfl⟩
    · exact ⟨x', hx', rfl⟩
  | dropContacts => exact ⟨x', (Table.get?_filter_eq_some_iff.mp hx').1, rfl⟩
  | _ => exact ⟨x', hx', rfl⟩

/-- A contact stays with its owner until it is deleted, and only its owner deletes it. -/
theorem contact (h : b.Change listed c b') (hb : b.Lawful) {id : ContactId} {x : Contact}
    (hx : b.contacts.get? id = some x) :
    (∃ x', b'.contacts.get? id = some x' ∧ x'.user = x.user) ∨
      ∃ user ids, c = .store (.contacts (.delete user ids)) ∧
        (b.ownContacts user ids).contains id = true := by
  cases h with
  | insertItem hi =>
    obtain ⟨-, -, -, rfl, rfl⟩ := insertItem_ok hi
    exact Or.inl ⟨x, hx, rfl⟩
  | insertContact =>
    have hne : (⟨b.lastContact + 1⟩ : ContactId) ≠ id := by
      rintro rfl
      have hle := hb.contacts _ _ hx
      simp only at hle
      omega
    exact Or.inl ⟨x, by simp only [OrderBook.insertContact, Table.get?_insert, if_neg hne, hx], rfl⟩
  | @updateContact user key patch y address hy =>
    by_cases hkey : key = id
    · subst hkey
      rw [hy] at hx
      cases hx
      exact Or.inl ⟨{ x with address := address }, by rw [Table.get?_insert, if_pos rfl], rfl⟩
    · exact Or.inl ⟨x, by simp only [Table.get?_insert, if_neg hkey, hx], rfl⟩
  | @dropContacts user ids =>
    cases hdoomed : (b.ownContacts user ids).contains id with
    | true => exact Or.inr ⟨user, ids, rfl, hdoomed⟩
    | false =>
      refine Or.inl ⟨x, ?_, rfl⟩
      simp [OrderBook.dropContacts, Table.get?_filter, hx, hdoomed]
  | _ => exact Or.inl ⟨x, hx, rfl⟩

/-- No number of a contact is given twice, since the counter of contacts never goes back. -/
theorem lastContact_le (h : b.Change listed c b') : b.lastContact ≤ b'.lastContact := by
  cases h with
  | insertItem hi =>
    obtain ⟨-, -, -, rfl, rfl⟩ := insertItem_ok hi
    exact Int.le_refl _
  | insertContact =>
    simp only [OrderBook.insertContact]
    omega
  | _ => exact Int.le_refl _

end Change

end OrderBook

end Marketplace
