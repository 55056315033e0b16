import Marketplace.Proofs.Isolation.Others
import Marketplace.Proofs.Job.Custody
import Marketplace.Proofs.Order.Sequence
set_option autoImplicit false

/-!
# What an account owns, seen from two worlds

`World.AgreeFor` says that two worlds have the same catalog rows and the same orders, order items,
contacts and jobs of an account; what others have may differ in any way.  Whatever is looked up for
the account alone is then the same in both.
-/

namespace Marketplace

/-! ## Looking things up for an account -/

namespace OrderBook

variable {b : OrderBook} {u : UserId} {id : OrderId} {o : Order}

/-- The order, if it is the account's. -/
def ownOrder? (b : OrderBook) (u : UserId) (id : OrderId) : Option Order :=
  (b.orders.get? id).filter fun o => o.buyer == u

theorem ownOrder?_eq_some_iff :
    b.ownOrder? u id = some o ↔ b.orders.get? id = some o ∧ o.buyer = u := by
  rw [ownOrder?, Option.filter_eq_some_iff, beq_iff_eq]

theorem Owns.of_ownOrder? (h : b.ownOrder? u id = some o) : b.Owns u id :=
  ⟨o, ownOrder?_eq_some_iff.mp h⟩

/-- A buyer's basket is the only one that the buyer has. -/
theorem basket?_eq_some_iff (hb : b.Lawful) :
    b.basket? u = some o ↔ b.orders.get? o.id = some o ∧ o.buyer = u ∧ o.isBasket = true := by
  refine ⟨basket?_eq_some hb, ?_⟩
  rintro ⟨ho, hbuyer, hbasket⟩
  cases hfound : b.basket? u with
  | none => exact absurd hbuyer (buyer_ne_of_basket?_eq_none hfound ho hbasket)
  | some p =>
    obtain ⟨hp, hbuyer', hbasket'⟩ := basket?_eq_some hb hfound
    have hid := hb.baskets _ _ p o hp ho hbasket' hbasket (hbuyer'.trans hbuyer.symm)
    rw [hid, ho] at hp
    exact hp.symm

theorem itemsOf_eq_values (b : OrderBook) (order : OrderId) :
    b.itemsOf order = (b.items.filter fun _ i => i.order == order).values := by
  unfold itemsOf Table.values
  rw [List.filter_map]
  rfl

end OrderBook

/-- The job, if it is the account's. -/
def JobStore.ownJob? (s : JobStore) (u : UserId) (id : JobId) : Option Job :=
  (s.find? id).filter fun j => j.owner == u

theorem JobStore.Distinct.ownJob?_eq_some_iff {s : JobStore} (hs : s.Distinct) {u : UserId}
    {id : JobId} {j : Job} :
    s.ownJob? u id = some j ↔ (j ∈ s.jobs ∧ j.id = id) ∧ j.owner = u := by
  rw [ownJob?, Option.filter_eq_some_iff, hs.find?_eq_some_iff, beq_iff_eq]

/-! ## Two worlds -/

namespace World

/-- The catalog has the same shops, products and listings in both worlds, and the account has the
same orders with the same items, the same contacts and the same jobs. -/
structure AgreeFor (w : World) (u : UserId) (w' : World) : Prop where
  shops : w.store.catalog.shops.AgreeOn w'.store.catalog.shops fun _ => True
  products : w.store.catalog.products.AgreeOn w'.store.catalog.products fun _ => True
  listings : w.store.catalog.listings.AgreeOn w'.store.catalog.listings fun _ => True
  orders : w.store.book.orders.AgreeOn w'.store.book.orders fun o => o.buyer = u
  items : w.store.book.items.AgreeOn w'.store.book.items fun i => w.store.book.Owns u i.order
  contacts : w.store.book.contacts.AgreeOn w'.store.book.contacts fun x => x.user = u
  jobs : ∀ j, j.owner = u → (j ∈ w'.jobs.jobs ↔ j ∈ w.jobs.jobs)

namespace AgreeFor

variable {w w' : World} {u : UserId}

theorem line?_eq (h : w.AgreeFor u w') :
    Store.line? w'.store.catalog = Store.line? w.store.catalog := by
  funext i
  simp only [Store.line?, h.shops.get?_eq, h.products.get?_eq, h.listings.get?_eq]

theorem ownOrder?_eq (h : w.AgreeFor u w') (id : OrderId) :
    w'.store.book.ownOrder? u id = w.store.book.ownOrder? u id :=
  h.orders.filter_get? (fun _ hbuyer => beq_iff_eq.mp hbuyer) id

theorem contact?_eq (h : w.AgreeFor u w') (id : ContactId) :
    w'.store.book.contact? u id = w.store.book.contact? u id :=
  h.contacts.filter_get? (fun _ huser => beq_iff_eq.mp huser) id

theorem ownContacts_size (h : w.AgreeFor u w') (ids : List ContactId) :
    (w'.store.book.ownContacts u ids).size = (w.store.book.ownContacts u ids).size :=
  h.contacts.size_filter fun _ _ htest => beq_iff_eq.mp (Bool.and_eq_true_iff.mp htest).1

theorem basket?_eq (h : w.AgreeFor u w') (hb : w.store.book.Lawful) (hb' : w'.store.book.Lawful) :
    w'.store.book.basket? u = w.store.book.basket? u := by
  apply Option.ext
  intro o
  rw [OrderBook.basket?_eq_some_iff hb, OrderBook.basket?_eq_some_iff hb']
  constructor
  · rintro ⟨ho, hbuyer, hbasket⟩
    exact ⟨(h.orders o.id o hbuyer).mp ho, hbuyer, hbasket⟩
  · rintro ⟨ho, hbuyer, hbasket⟩
    exact ⟨(h.orders o.id o hbuyer).mpr ho, hbuyer, hbasket⟩

theorem itemsOf_eq (h : w.AgreeFor u w') (hi : w.store.book.items.Ascending)
    (hi' : w'.store.book.items.Ascending) {order : OrderId} (howns : w.store.book.Owns u order) :
    w'.store.book.itemsOf order = w.store.book.itemsOf order := by
  rw [OrderBook.itemsOf_eq_values, OrderBook.itemsOf_eq_values]
  refine h.items.filter_values hi hi' fun _ i htest => ?_
  rw [beq_iff_eq.mp htest]
  exact howns

theorem ownJob?_eq (h : w.AgreeFor u w') (hj : w.jobs.Distinct) (hj' : w'.jobs.Distinct)
    (id : JobId) : w'.jobs.ownJob? u id = w.jobs.ownJob? u id := by
  apply Option.ext
  intro j
  rw [hj.ownJob?_eq_some_iff, hj'.ownJob?_eq_some_iff]
  refine and_congr_left fun howner => and_congr_left fun _ => h.jobs j howner

/-- The contact of an order of the account, in worlds where no order has the contact of another
account. -/
theorem contact_eq (h : w.AgreeFor u w') {contact : Option ContactId}
    (hmine : ∀ id x, contact = some id → w.store.book.contacts.get? id = some x → x.user = u)
    (hmine' : ∀ id x, contact = some id → w'.store.book.contacts.get? id = some x → x.user = u) :
    contact.bind w'.store.book.contacts.get? = contact.bind w.store.book.contacts.get? := by
  cases contact with
  | none => rfl
  | some id =>
    apply Option.ext
    intro x
    constructor
    · intro hx
      exact (h.contacts id x (hmine' id x rfl hx)).mp hx
    · intro hx
      exact (h.contacts id x (hmine id x rfl hx)).mpr hx

/-- An order of the account with its lines and its contact. -/
theorem detail_eq (h : w.AgreeFor u w') (hi : w.store.book.items.Ascending)
    (hi' : w'.store.book.items.Ascending) {id : OrderId} (howns : w.store.book.Owns u id)
    (o : Order)
    (hmine : ∀ id x, o.contact = some id → w.store.book.contacts.get? id = some x → x.user = u)
    (hmine' : ∀ id x, o.contact = some id → w'.store.book.contacts.get? id = some x →
      x.user = u) :
    w'.store.book.detail (Store.line? w'.store.catalog) o (w'.store.book.itemsOf id) =
      w.store.book.detail (Store.line? w.store.catalog) o (w.store.book.itemsOf id) := by
  unfold OrderBook.detail
  rw [h.line?_eq, h.itemsOf_eq hi hi' howns, h.contact_eq hmine hmine']

end AgreeFor

end World

end Marketplace
