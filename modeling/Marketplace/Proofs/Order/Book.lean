import Marketplace.Order.Book
import Marketplace.Proofs.Table
set_option autoImplicit false

/-!
# What operations do to the order book

`OrderBook.Consistent` is the invariant of orders and items, with a condition on the listing and the
shop of each item.  Only `insertItem` adds items; whatever else happens to the book,
`OrderBook.Follows` says what stays.
-/

namespace Marketplace

/-- Placing an order changes its status and its contact, and it is a placing only of a basket. -/
theorem Order.place_ok {o placed : Order} {contact : ContactId} (h : o.place contact = .ok placed) :
    ∃ s, o.status.become .new = .ok s ∧
      placed = { o with status := s, contact := some contact } := by
  simp only [place] at h
  cases hs : o.status.become .new with
  | error r =>
    rw [hs] at h
    cases h
  | ok s =>
    rw [hs] at h
    cases h
    exact ⟨s, rfl, rfl⟩

namespace OrderBook

variable {b b' b'' : OrderBook} {good : ListingId → ShopId → Prop}

/-- The items of an order are the stored ones that name it; an order has no list of its own. -/
theorem mem_itemsOf {order : OrderId} {i : OrderItem} :
    i ∈ b.itemsOf order ↔ (∃ k, b.items.get? k = some i) ∧ i.order = order := by
  rw [itemsOf, List.mem_filter, Table.mem_values_iff, beq_iff_eq]

/-! ## The invariant of orders and items -/

/-- Orders and items have the identifiers under which they are stored, and every item is one or more
pieces of something good in an order that exists. -/
structure Consistent (good : ListingId → ShopId → Prop) (b : OrderBook) : Prop where
  orders : b.orders.All fun id o => o.id = id
  items : b.items.All fun k i =>
    i.id = k ∧ b.orders.contains i.order = true ∧ 1 ≤ i.quantity ∧ good i.listing i.shop

theorem Consistent.empty : OrderBook.empty.Consistent good := ⟨.empty, .empty⟩

theorem Consistent.imp {fine : ListingId → ShopId → Prop} (h : b.Consistent good)
    (hgood : ∀ listing shop, good listing shop → fine listing shop) : b.Consistent fine where
  orders := h.orders
  items := h.items.imp fun _ _ hi => ⟨hi.1, hi.2.1, hi.2.2.1, hgood _ _ hi.2.2.2⟩

/-! ## Changes that add no items -/

/-- The second book comes from the first one without new items: orders are still there under their
identifiers, and an item is one of before, with its old quantity or with a positive one. -/
structure Follows (b b' : OrderBook) : Prop where
  orders : ∀ id, b.orders.contains id = true → b'.orders.contains id = true
  named : (b.orders.All fun id o => o.id = id) → b'.orders.All fun id o => o.id = id
  items : b'.items.All fun k i' => ∃ i, b.items.get? k = some i ∧
    i' = { i with quantity := i'.quantity } ∧ (i'.quantity = i.quantity ∨ 1 ≤ i'.quantity)

namespace Follows

/-- Some items are taken away, and those that stay are as they were. -/
theorem of_filter (b : OrderBook) (p : OrderItemId → OrderItem → Bool) :
    b.Follows { b with items := b.items.filter p } where
  orders := fun _ h => h
  named := fun h => h
  items := fun _ i hi => ⟨i, (Table.get?_filter_eq_some_iff.mp hi).1, rfl, Or.inl rfl⟩

/-- Items and orders that nothing happens to. -/
theorem beside (contacts : Table ContactId Contact) (lastOrder lastItem lastContact : Int) :
    b.Follows ⟨b.orders, b.items, contacts, lastOrder, lastItem, lastContact⟩ where
  orders := fun _ h => h
  named := fun h => h
  items := fun _ i hi => ⟨i, hi, rfl, Or.inl rfl⟩

theorem refl (b : OrderBook) : b.Follows b := beside _ _ _ _

theorem trans (h : b.Follows b') (h' : b'.Follows b'') : b.Follows b'' where
  orders := fun id hid => h'.orders id (h.orders id hid)
  named := fun hnamed => h'.named (h.named hnamed)
  items := by
    intro k i'' hi''
    obtain ⟨i', hi', heq', hquantity'⟩ := h'.items k i'' hi''
    obtain ⟨i, hi, heq, hquantity⟩ := h.items k i' hi'
    refine ⟨i, hi, by rw [heq', heq], ?_⟩
    omega

/-- A row for an order, under its identifier.  It may be a new one, or take the place of the same
order. -/
theorem setOrder (o : Order) (lastOrder : Int) :
    b.Follows { b with orders := b.orders.insert o.id o, lastOrder := lastOrder } where
  orders := fun id h => by simp [h]
  named := fun h => h.insert rfl
  items := fun _ i hi => ⟨i, hi, rfl, Or.inl rfl⟩

theorem getOrCreateBasket (b : OrderBook) (buyer : UserId) (now : Instant) :
    b.Follows (b.getOrCreateBasket buyer now).2 := by
  simp only [OrderBook.getOrCreateBasket]
  split
  · exact refl b
  · exact setOrder _ _

/-- A quantity may change, but not what the item stands for. -/
theorem updateQuantity {order : OrderId} {item : OrderItemId} {quantity : Int} {found : Bool}
    (h : b.updateQuantity order item quantity = .ok (found, b')) : b.Follows b' := by
  simp only [OrderBook.updateQuantity] at h
  split at h
  · cases h
  · rename_i hquantity
    split at h
    · rename_i i hi
      split at h
      · cases h
        refine ⟨fun _ h => h, fun h => h, ?_⟩
        intro k i' hi'
        rw [Table.get?_insert] at hi'
        split at hi'
        · rename_i hk
          subst hk
          cases hi'
          exact ⟨i, hi, rfl, Or.inr (by simp only; omega)⟩
        · exact ⟨i', hi', rfl, Or.inl rfl⟩
      · cases h
        exact refl b
    · cases h
      exact refl b

theorem deleteItems (b : OrderBook) (order : OrderId) (ids : List OrderItemId) :
    b.Follows (b.deleteItems order ids).2 := of_filter b _

/-- A placing writes the order in its own place. -/
theorem placeOrder {order : OrderId} {contact : ContactId} {done : Bool}
    (h : b.placeOrder order contact = .ok (done, b')) : b.Follows b' := by
  simp only [OrderBook.placeOrder] at h
  split at h
  · cases h
  · split at h
    · cases h
      exact refl b
    · rename_i o ho
      split at h
      · rename_i placed hplaced
        cases h
        have hid : placed.id = o.id := by
          obtain ⟨s, -, rfl⟩ := Order.place_ok hplaced
          rfl
        refine ⟨fun id h => by simp [h], ?_, fun _ i hi => ⟨i, hi, rfl, Or.inl rfl⟩⟩
        intro hnamed
        exact hnamed.insert (hid.trans (hnamed order o ho))
      · cases h
        exact refl b

theorem dropUnlisted (b : OrderBook) (isListed : ListingId → Bool) :
    b.Follows (b.dropUnlisted isListed) := of_filter b _

theorem insertContact (b : OrderBook) (user : UserId) (a : Address) :
    b.Follows (b.insertContact user a).2 := beside _ _ _ _

theorem updateContact (b : OrderBook) (user : UserId) (id : ContactId) (patch : AddressInput) :
    b.Follows (b.updateContact user id patch).2 := by
  simp only [OrderBook.updateContact]
  split
  · exact refl b
  · exact beside _ _ _ _

theorem dropContacts (b : OrderBook) (doomed : Table ContactId Contact) :
    b.Follows (b.dropContacts doomed) := beside _ _ _ _

/-- Orders that lose their contacts are orders still. -/
theorem clearContacts (b : OrderBook) (doomed : Table ContactId Contact) :
    b.Follows (b.clearContacts doomed) where
  orders := fun id h => by simpa [OrderBook.clearContacts, Table.contains] using h
  named := by
    intro h id o ho
    simp only [OrderBook.clearContacts, Table.get?_mapValues, Option.map_eq_some_iff] at ho
    obtain ⟨old, hold, rfl⟩ := ho
    split <;> exact h id old hold
  items := fun _ i hi => ⟨i, hi, rfl, Or.inl rfl⟩

theorem deleteContacts (b : OrderBook) (user : UserId) (ids : List ContactId) :
    b.Follows (b.deleteContacts user ids).2 :=
  (dropContacts b _).trans (clearContacts _ _)

end Follows

/-- What does not add items keeps the book consistent, whatever is asked of listings and shops. -/
theorem Consistent.follows (h : b.Consistent good) (hb : b.Follows b') : b'.Consistent good where
  orders := hb.named h.orders
  items := by
    intro k i' hi'
    obtain ⟨i, hi, heq, hquantity⟩ := hb.items k i' hi'
    obtain ⟨hid, horder, hpositive, hgood⟩ := h.items k i hi
    rw [heq]
    refine ⟨hid, hb.orders _ horder, ?_, hgood⟩
    simp only
    omega

/-! ## New items and lost ones -/

/-- What an item needs to be added, and what the book is like then: the order is there, the listing
is there, and the quantity is positive. -/
theorem insertItem_ok {isListed : ListingId → Bool} {order : OrderId} {listing : ListingId}
    {shop : ShopId} {quantity : Int} {i : OrderItem}
    (h : b.insertItem isListed order listing shop quantity = .ok (i, b')) :
    1 ≤ quantity ∧ b.orders.contains order = true ∧ isListed listing = true ∧
      i = ⟨⟨b.lastItem + 1⟩, order, listing, shop, quantity⟩ ∧
        b' = { b with items := b.items.insert i.id i, lastItem := b.lastItem + 1 } := by
  simp only [insertItem] at h
  split at h
  · cases h
  · split at h
    · cases h
    · split at h
      · cases h
      · rename_i hquantity horder hlisted
        cases h
        exact ⟨by omega, by simpa using horder, by simpa using hlisted, rfl, rfl⟩

theorem Consistent.insertItem (h : b.Consistent good) {isListed : ListingId → Bool}
    {order : OrderId} {listing : ListingId} {shop : ShopId} {quantity : Int} {i : OrderItem}
    (hi : b.insertItem isListed order listing shop quantity = .ok (i, b'))
    (hgood : good listing shop) : b'.Consistent good := by
  obtain ⟨hquantity, horder, -, rfl, rfl⟩ := insertItem_ok hi
  exact ⟨h.orders, h.items.insert ⟨rfl, horder, hquantity, hgood⟩⟩

/-- Once the items without a listing are gone, all that are left have one. -/
theorem Consistent.dropUnlisted (h : b.Consistent good) (isListed : ListingId → Bool) :
    (b.dropUnlisted isListed).Consistent fun listing shop =>
      good listing shop ∧ isListed listing = true where
  orders := h.orders
  items := by
    intro k i hi
    obtain ⟨hold, hlisted⟩ := Table.get?_filter_eq_some_iff.mp hi
    obtain ⟨hid, horder, hquantity, hgood⟩ := h.items k i hold
    exact ⟨hid, horder, hquantity, hgood, hlisted⟩

end OrderBook

end Marketplace
