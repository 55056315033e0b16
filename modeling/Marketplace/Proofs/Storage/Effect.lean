import Marketplace.Proofs.Order.Book
import Marketplace.Proofs.Program.Pool
import Marketplace.Proofs.Storage.Reachable
set_option autoImplicit false

/-!
# What calls do to the store

`Store.Effect` lists all that a call, up to its second half, can do to the store.  Each step of an
activity is then a few steps of the store, and what these keep is kept whatever programs run.
-/

namespace Marketplace

/-- The store as a call with that remainder leaves it, one case for each thing that can happen.
What matters to the invariants has a case of its own, with its guard; everything else is
`beside`. -/
inductive Store.Effect (s : Store) : Call → Option Remainder → Store → Prop
  | begin (hdraft : s.draft = none) :
    Effect s (.store (.catalog .begin)) none { s with draft := some s.catalog }
  | discard : Effect s .discard none s.discard
  | accepting {shop : ShopId} {accepting : Bool} (hdraft : s.draft = none) :
    Effect s (.store (.catalog (.setAccepting shop accepting))) none
      { s with catalog := { s.catalog with shops := s.catalog.shops.modify shop fun row =>
          { row with acceptingOrders := accepting } } }
  | edit {c : DraftCall} {d e : Draft} {a : c.Result} (hc : c ≠ .commit)
      (hs : s = s.withDraft d) (hedit : c.onDraft d = .ok (a, e)) :
    Effect s (.store (.draft c)) none (s.withDraft e)
  | publish {c : Catalog} (hdraft : s.draft = some c) :
    Effect s (.store (.draft .commit)) (some .cascade) { s with catalog := c }
  | insert {order : OrderId} {listing : ListingId} {shop : ShopId} {quantity : Int}
      {i : OrderItem} {b : OrderBook}
      (hi : s.book.insertItem s.catalog.listings.contains order listing shop quantity =
        .ok (i, b)) :
    Effect s (.store (.orders (.insertItem order listing shop quantity))) none
      { s with book := b }
  /-- Nothing happens to catalog and draft, and no item is added. -/
  | beside {c : Call} {m : Option Remainder} {b : OrderBook} {accounts : Table UserId Account}
      (hb : s.book.Follows b) (hbegin : c ≠ .store (.catalog .begin)) (hdiscard : c ≠ .discard)
      (hm : m ≠ some .cascade) : Effect s c m { s with book := b, accounts := accounts }

namespace Store.Effect

variable {s t : Store} {c : Call} {m : Option Remainder}

/-- A call that only reads is beside catalog and draft, with the same book and the same accounts. -/
theorem same (s : Store) (hbegin : c ≠ .store (.catalog .begin)) (hdiscard : c ≠ .discard) :
    s.Effect c none s :=
  beside (.refl s.book) hbegin hdiscard (by simp)

/-- Of the calls of the catalog only two write: one begins a draft, the other opens or closes a
shop.  Both wait for the draft that is under way. -/
theorem of_catalog {c : CatalogCall} {r : c.Result} (h : c.step s = some (r, t)) :
    s.Effect (.store (.catalog c)) none t := by
  rcases CatalogCall.step_cases h with
    ⟨rfl, hdraft, rfl⟩ | ⟨shop, accepts, rfl, hdraft, rfl⟩ | ⟨hbegin, rfl⟩
  · exact begin hdraft
  · exact accepting hdraft
  · exact same t (by simpa using hbegin) (by simp)

/-- A call of the draft edits it, or leaves the store as it is: without a draft it is refused, and
an edit that fails changes nothing. -/
theorem of_draft (s : Store) {c : DraftCall} (hc : c ≠ .commit) :
    s.Effect (.store (.draft c)) none (c.step s).2 := by
  rcases DraftCall.step_cases s hc with hsame | ⟨d, e, a, hs, he, hstep⟩
  · rw [hsame]
    exact same s (by simp) (by simp)
  · rw [hstep]
    exact edit hc hs he

/-- A new item is a case of its own since it refers to the catalog; all other calls of orders take
items away or change what they do not refer with. -/
theorem of_orders (s : Store) (now : Instant) (c : OrderCall) :
    s.Effect (.store (.orders c)) none (c.step s now).2 := by
  have hbeside : ∀ {b : OrderBook}, s.book.Follows b →
      s.Effect (.store (.orders c)) none { s with book := b } :=
    fun hb => beside hb (by simp) (by simp) (by simp)
  cases c with
  | basket buyer => exact hbeside (.getOrCreateBasket s.book buyer now)
  | insertItem order listing shop quantity =>
    simp only [OrderCall.step, Store.tryBook]
    split
    · exact same s (by simp) (by simp)
    · rename_i i b hi
      exact insert hi
  | updateQuantity order item quantity =>
    simp only [OrderCall.step, Store.tryBook]
    split
    · exact same s (by simp) (by simp)
    · rename_i found b hb
      exact hbeside (.updateQuantity hb)
  | deleteItems order items => exact hbeside (.deleteItems s.book order items)
  | place order contact =>
    simp only [OrderCall.step, Store.tryBook]
    split
    · exact same s (by simp) (by simp)
    · rename_i done b hb
      exact hbeside (.placeOrder hb)
  | order _ => exact same s (by simp) (by simp)
  | itemCount _ => exact same s (by simp) (by simp)
  | detail _ => exact same s (by simp) (by simp)
  | ofBuyer _ => exact same s (by simp) (by simp)
  | ofShop _ => exact same s (by simp) (by simp)

/-- Contacts are no part of the catalog, and orders that lose their contact keep their items. -/
theorem of_contacts (s : Store) (c : ContactCall) :
    s.Effect (.store (.contacts c)) none (c.step s).2 := by
  have hbeside : ∀ {b : OrderBook}, s.book.Follows b →
      s.Effect (.store (.contacts c)) none { s with book := b } :=
    fun hb => beside hb (by simp) (by simp) (by simp)
  cases c with
  | insert user address => exact hbeside (.insertContact s.book user address)
  | update user id patch => exact hbeside (.updateContact s.book user id patch)
  | delete user ids => exact hbeside (.deleteContacts s.book user ids)
  | all _ => exact same s (by simp) (by simp)
  | one _ _ => exact same s (by simp) (by simp)

/-- What the store is like when a call has been answered.  A commit and the deletion of contacts are
answered after their first half, which is what the remainder says. -/
theorem of_act {w w' : World} {r : c.Reply} (h : w.act c = some (r, w', m)) :
    w.store.Effect c m w'.store := by
  cases c with
  | store c =>
    cases c with
    | catalog c =>
      simp only [World.act, World.handle, StoreCall.step, Option.map_map, Option.map_eq_some_iff]
        at h
      obtain ⟨⟨a, t⟩, ha, heq⟩ := h
      cases heq
      exact of_catalog ha
    | draft c =>
      by_cases hc : c = .commit
      · subst hc
        simp only [World.act] at h
        cases hdraft : w.store.draft with
        | none =>
          rw [hdraft] at h
          cases h
          exact same _ (by simp) (by simp)
        | some cat =>
          rw [hdraft] at h
          cases h
          have hpublish : w.store.publish = { w.store with catalog := cat } := by
            simp only [Store.publish, hdraft]
          simp only [hpublish]
          exact publish hdraft
      · have heffect := of_draft w.store hc
        cases c with
        | commit => exact absurd rfl hc
        | _ => cases h; exact heffect
    | orders c =>
      cases h
      exact of_orders w.store w.clock c
    | contacts c =>
      have heffect := of_contacts w.store c
      cases c with
      | delete user ids =>
        cases h
        exact beside (.dropContacts _ _) (by simp) (by simp) (by simp)
      | _ => cases h; exact heffect
  | lock buyer =>
    simp only [World.act, World.handle] at h
    split at h
    · cases h
    · cases h
      exact same _ (by simp) (by simp)
  | discard => cases h; exact discard
  | remember a =>
    cases h
    exact beside (.refl _) (by simp) (by simp) (by simp)
  | job c => cases h; exact same _ (by simp) (by simp)
  | send mail => cases h; exact same _ (by simp) (by simp)
  | account _ => cases h; exact same _ (by simp) (by simp)
  | now => cases h; exact same _ (by simp) (by simp)
  | newJobId => cases h; exact same _ (by simp) (by simp)
  | read _ => cases h; exact same _ (by simp) (by simp)
  | unlock _ => cases h; exact same _ (by simp) (by simp)

end Store.Effect

end Marketplace
