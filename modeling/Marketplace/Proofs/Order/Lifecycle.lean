import Mathlib.Logic.Relation
import Marketplace.Proofs.Order.Knowledge
set_option autoImplicit false

/-!
# The life of orders

Whatever buyers, shops and imports do at one time, a buyer has one basket at most, an order is a
basket without a contact until it is placed for good, and the contact of a placed order is there and
is the buyer's.  The store alone does not see to the last: it takes any contact for any order, and
deleting contacts clears orders of them only in its second half.

So there are two invariants on contacts: `Pool.Attached` for those that orders name, and
`Pool.Clearing` for those that are on their way out.  Each is kept by every step of an activity, and
`Reachable.orders_lawful` reads the rest off the order book.
-/

namespace Marketplace

/-! ## The contacts of orders -/

/-- An order names a contact because it has done so before, or has just been placed for it.  In the
second case the contact is there, since a placing asks for it. -/
theorem OrderBook.Change.contact_source {listed : ListingId → Bool} {b b' : OrderBook} {c : Call}
    (h : b.Change listed c b') {id : OrderId} {o' : Order} {contact : ContactId}
    (ho' : b'.orders.get? id = some o') (hcontact : o'.contact = some contact) :
    ∃ o, b.orders.get? id = some o ∧ o.buyer = o'.buyer ∧
      (o.contact = some contact ∨ c = .store (.orders (.place id contact)) ∧
        b.contacts.contains contact = true ∧ b'.contacts = b.contacts) := by
  cases h with
  | basket hnone =>
    simp only [Table.get?_insert] at ho'
    split at ho'
    · cases ho'
      cases hcontact
    · exact ⟨o', ho', rfl, Or.inl hcontact⟩
  | insertItem hi =>
    obtain ⟨-, -, -, rfl, rfl⟩ := insertItem_ok hi
    exact ⟨o', ho', rfl, Or.inl hcontact⟩
  | place ho hbasket hthere =>
    simp only [Table.get?_insert] at ho'
    split at ho'
    · rename_i hid
      subst hid
      cases ho'
      cases hcontact
      exact ⟨_, ho, rfl, Or.inr ⟨rfl, hthere, rfl⟩⟩
    · exact ⟨o', ho', rfl, Or.inl hcontact⟩
  | _ => exact ⟨o', ho', rfl, Or.inl hcontact⟩

/-- Nothing but the deletion of contacts has a second half that clears orders of them. -/
theorem World.delete_of_clear {w w' : World} {c : Call} {r : c.Reply}
    {doomed : Table ContactId Contact} (h : w.act c = some (r, w', some (.clear doomed))) :
    ∃ user ids, c = .store (.contacts (.delete user ids)) := by
  have hnone : ∀ c : Call, (w.handle c).map (fun r => (r.1, r.2, (none : Option Remainder))) =
      w.act c → ∀ r : c.Reply, w.act c ≠ some (r, w', some (.clear doomed)) := by
    intro c hact r h
    rw [← hact, Option.map_eq_some_iff] at h
    obtain ⟨_, -, heq⟩ := h
    cases heq
  cases c with
  | store c =>
    cases c with
    | draft c =>
      cases c with
      | commit =>
        simp only [World.act] at h
        split at h <;> cases h
      | _ => exact absurd h (hnone _ rfl r)
    | contacts c =>
      cases c with
      | delete user ids => exact ⟨user, ids, rfl⟩
      | _ => exact absurd h (hnone _ rfl r)
    | _ => exact absurd h (hnone _ rfl r)
  | _ => exact absurd h (hnone _ rfl r)

namespace Pool

variable {admitted : Program Unit → Prop} {P Q : Pool}

/-- A deletion of the contact is between its halves: the contact is gone, and orders may name it
still. -/
def Deleting (P : Pool) (contact : ContactId) : Prop :=
  ∃ a ∈ P.activities, ∃ doomed, a.remainder = some (.clear doomed) ∧ doomed.contains contact = true

/-- It stays so until the second half of that very deletion. -/
theorem Deleting.move {w w' : World} {as bs : List Activity} {a a' : Activity}
    {contact : ContactId} (h : Deleting ⟨w, as ++ a :: bs⟩ contact)
    (ha : ∀ doomed, a.remainder = some (.clear doomed) → doomed.contains contact = false) :
    Deleting ⟨w', as ++ a' :: bs⟩ contact := by
  obtain ⟨x, hx, doomed, hclear, hdoomed⟩ := h
  have hne : x ≠ a := by
    rintro rfl
    rw [ha doomed hclear] at hdoomed
    cases hdoomed
  refine ⟨x, ?_, doomed, hclear, hdoomed⟩
  simp only [List.mem_append, List.mem_cons] at hx ⊢
  rcases hx with hx | hx | hx
  · exact Or.inl hx
  · exact absurd hx hne
  · exact Or.inr (Or.inr hx)

/-- The contact of an order is there and is the buyer's, or is being deleted.  The second half of
the deletion takes it off the order, so the gap closes by itself. -/
def Attached (P : Pool) : Prop :=
  ∀ id o contact, P.world.store.book.orders.get? id = some o → o.contact = some contact →
    (∃ x, P.world.store.book.contacts.get? contact = some x ∧ x.user = o.buyer) ∨
      P.Deleting contact

/-- The only step that could break this is a placing, and whoever places an order has looked the
contact up before, under the buyer's lock; what has been learnt of it holds still
(`Activity.Knows`). -/
theorem Attached.move {w w' : World} {as bs : List Activity} {a a' : Activity} {k : Insight}
    (h : Attached ⟨w, as ++ a :: bs⟩) (hb : w.store.book.Lawful) (hk : a.Knows w k)
    (ha : a.Step w w' a') : Attached ⟨w', as ++ a' :: bs⟩ := by
  intro id o' contact ho' hcontact
  cases ha with
  | @call c next r _ m hprogram hwhole hallows hact =>
    have hchange := OrderBook.Change.of_act hact
    obtain ⟨o, ho, hbuyer, hsame | ⟨rfl, hthere, hcontacts⟩⟩ :=
      hchange.contact_source ho' hcontact
    · rcases h id o contact ho hsame with ⟨x, hx, huser⟩ | hdeleting
      · rcases hchange.contact hb hx with ⟨x', hx', huser'⟩ | ⟨user, ids, rfl, hdoomed⟩
        · exact Or.inl ⟨x', hx', huser'.trans (huser.trans hbuyer)⟩
        · cases hact
          exact Or.inr ⟨_, List.mem_append_right _ List.mem_cons_self, _, rfl, hdoomed⟩
      · refine Or.inr (hdeleting.move fun doomed hclear => ?_)
        rw [hwhole] at hclear
        cases hclear
    · -- The rules let an order be placed for nothing but a contact of its buyer.
      have hallowed : .order id ∈ k.facts ∧ .contact contact ∈ k.facts ∧ .counted id ∈ k.facts :=
        hk.allowed hprogram
      obtain ⟨p, hp, howner⟩ := hk.facts _ hallowed.1
      obtain ⟨x, hx⟩ := Table.contains_iff.mp hthere
      have huser := (hk.facts _ hallowed.2.1).2 x hx
      rw [ho] at hp
      cases hp
      rw [howner] at huser
      refine Or.inl ⟨x, ?_, ?_⟩
      · rw [hcontacts]
        exact hx
      · rw [← hbuyer]
        exact (Option.some.inj huser).symm
  | @finish m hhalf =>
    cases m with
    | cascade =>
      refine (h id o' contact ho' hcontact).imp_right fun hdeleting => hdeleting.move ?_
      intro doomed hclear
      rw [hhalf] at hclear
      cases hclear
    | clear doomed =>
      obtain ⟨o, ho, rfl⟩ := OrderBook.cleared_of_get? ho'
      unfold Order.cleared at hcontact ⊢
      split at hcontact
      · cases hcontact
      · rename_i hkept
        rw [hcontact] at hkept
        rw [if_neg (by rw [hcontact]; exact hkept)]
        refine (h id o contact ho hcontact).imp_right fun hdeleting => hdeleting.move ?_
        intro doomed' hclear
        rw [hhalf] at hclear
        cases hclear
        simpa using hkept
  | drop hwhole =>
    simp only [Activity.release_book] at ho' ⊢
    refine (h id o' contact ho' hcontact).imp_right fun hdeleting => hdeleting.move ?_
    intro doomed hclear
    rw [hwhole] at hclear
    cases hclear

/-- It holds in the beginning, where no order has a contact, and every step keeps it. -/
theorem Reachable.attached (h : P.Reachable Program.ThroughServices) : P.Attached := by
  induction h with
  | start clock retention =>
    intro id o contact ho
    cases ho
  | @step P Q hP hst ih =>
    cases hst with
    | start _ =>
      intro id o contact ho hcontact
      refine (ih id o contact ho hcontact).imp_right ?_
      rintro ⟨a, ha, hdoomed⟩
      exact ⟨a, List.mem_append_left _ ha, hdoomed⟩
    | environment clock files => exact ih
    | @move w w' a a' as bs ha =>
      obtain ⟨k, hk⟩ := hP.knows a (by simp)
      exact ih.move hP.lawful hk ha

/-- A contact that is being deleted is gone.  Its identifier is not given again, so that no other
contact takes its place before orders have been cleared. -/
def Clearing (P : Pool) : Prop :=
  ∀ a ∈ P.activities, ∀ doomed, a.remainder = some (.clear doomed) → ∀ contact,
    doomed.contains contact = true →
      contact.value ≤ P.world.store.book.lastContact ∧
        P.world.store.book.contacts.get? contact = none

/-- Contacts on their way out have been deleted, and a deleted one does not come back. -/
theorem Clearing.move {w w' : World} {as bs : List Activity} {a a' : Activity}
    (h : Clearing ⟨w, as ++ a :: bs⟩) (hb : w.store.book.Lawful) (ha : a.Step w w' a') :
    Clearing ⟨w', as ++ a' :: bs⟩ := by
  have hturns := ha.turns
  have hother : ∀ x ∈ as ++ a :: bs, ∀ doomed, x.remainder = some (.clear doomed) → ∀ contact,
      doomed.contains contact = true →
        contact.value ≤ w'.store.book.lastContact ∧ w'.store.book.contacts.get? contact = none := by
    intro x hx doomed hclear contact hdoomed
    obtain ⟨hle, hgone⟩ := h x hx doomed hclear contact hdoomed
    refine ⟨Int.le_trans hle hturns.lastContact_le, ?_⟩
    refine Option.eq_none_iff_forall_ne_some.mpr fun y hy => ?_
    obtain ⟨y', hy', -⟩ := hturns.contact_owner hle hy
    rw [hgone] at hy'
    cases hy'
  intro x hx
  rcases List.mem_append.mp hx with hx | hx
  · exact hother x (List.mem_append_left _ hx)
  · rcases List.mem_cons.mp hx with rfl | hx
    · intro doomed hclear contact hdoomed
      cases ha with
      | @call c next r _ m hprogram hwhole hallows hact =>
        have hm : m = some (.clear doomed) := hclear
        obtain ⟨user, ids, rfl⟩ := World.delete_of_clear (hm ▸ hact)
        cases hact
        cases hm
        obtain ⟨y, hy⟩ := Table.contains_iff.mp hdoomed
        have hmine := (Table.get?_filter_eq_some_iff.mp hy).1
        refine ⟨hb.contacts _ y hmine, ?_⟩
        refine Option.eq_none_iff_forall_ne_some.mpr fun z hz => ?_
        have hkept := (Table.get?_filter_eq_some_iff.mp hz).2
        rw [hdoomed] at hkept
        cases hkept
      | @finish m hhalf => cases m <;> cases hclear
      | drop _ => cases hclear
    · exact hother x (List.mem_append_right _ (List.mem_cons_of_mem _ hx))

/-- Contacts that are to be cleared are gone in every reachable pool. -/
theorem Reachable.clearing (h : P.Reachable admitted) : P.Clearing := by
  induction h with
  | start clock retention => exact nofun
  | @step P Q hP hst ih =>
    cases hst with
    | start _ =>
      intro a ha doomed hclear
      rcases List.mem_append.mp ha with ha | ha
      · exact ih a ha doomed hclear
      · rw [List.mem_singleton.mp ha] at hclear
        cases hclear
    | environment clock files => exact ih
    | move as bs ha => exact ih.move hP.lawful ha

/-- An order whose contact is there is that of the contact's owner.  The contact is not being
deleted then, for it would be gone. -/
theorem Reachable.contact_of_order (h : P.Reachable Program.ThroughServices) {id : OrderId}
    {o : Order} {contact : ContactId} {x : Contact}
    (ho : P.world.store.book.orders.get? id = some o) (hcontact : o.contact = some contact)
    (hx : P.world.store.book.contacts.get? contact = some x) : x.user = o.buyer := by
  rcases h.attached id o contact ho hcontact with ⟨y, hy, huser⟩ | ⟨a, ha, doomed, hclear, hdoomed⟩
  · rw [hx] at hy
    cases hy
    exact huser
  · have hgone := (h.clearing a ha doomed hclear contact hdoomed).2
    rw [hx] at hgone
    cases hgone

/-! ## Later times -/

/-- The second pool is the first one at a later time, with any steps in between. -/
abbrev Later (admitted : Program Unit → Prop) : Pool → Pool → Prop :=
  Relation.ReflTransGen (Step admitted)

/-- What is later than a reachable pool is reachable. -/
theorem Reachable.later (h : P.Reachable admitted) (hlater : Later admitted P Q) :
    Q.Reachable admitted := by
  induction hlater with
  | refl => exact h
  | tail _ hst ih => exact ih.step hst

theorem Step.keepsOrders (hst : P.Step admitted Q) (hb : P.world.store.book.Lawful) :
    P.world.store.book.KeepsOrders Q.world.store.book := by
  cases hst with
  | start _ => exact .of_eq rfl
  | move as bs ha => exact ha.turns.keepsOrders hb
  | environment clock files => exact .of_eq rfl

/-- Whatever programs run, orders stay, and go on in their lives. -/
theorem Later.keepsOrders (hlater : Later admitted P Q) (hb : P.world.store.book.Lawful) :
    P.world.store.book.KeepsOrders Q.world.store.book := by
  have hboth : Q.world.store.book.Lawful ∧
      P.world.store.book.KeepsOrders Q.world.store.book := by
    induction hlater with
    | refl => exact ⟨hb, .of_eq rfl⟩
    | tail _ hst ih => exact ⟨hst.lawful ih.1, ih.2.trans (hst.keepsOrders ih.1)⟩
  exact hboth.2

/-- A buyer has one basket at most; a basket has no contact, and what is no basket has been placed;
at any later time an order has its buyer and the time of its making still, and once placed it stays
so; and the contact of an order is there and is the buyer's, unless a deletion of it is between its
halves. -/
theorem Reachable.orders_lawful (h : P.Reachable Program.ThroughServices) :
    let b := P.world.store.book
    (∀ id id' o o', b.orders.get? id = some o → b.orders.get? id' = some o' →
      o.status = .basket → o'.status = .basket → o.buyer = o'.buyer → id = id') ∧
      (∀ id o, b.orders.get? id = some o →
        o.status = .basket ∧ o.contact = none ∨ o.status = .new) ∧
      (∀ Q, Later Program.ThroughServices P Q → ∀ id o, b.orders.get? id = some o →
        ∃ o', Q.world.store.book.orders.get? id = some o' ∧ o'.buyer = o.buyer ∧
          o'.createdAt = o.createdAt ∧ (o.status = .new → o'.status = .new)) ∧
      ∀ id o contact, b.orders.get? id = some o → o.contact = some contact →
        (∃ x, b.contacts.get? contact = some x ∧ x.user = o.buyer) ∨ P.Deleting contact := by
  intro b
  have hlawful : b.Lawful := h.lawful
  refine ⟨?_, ?_, ?_, h.attached⟩
  · intro id id' o o' ho ho' hbasket hbasket' hbuyer
    exact hlawful.baskets id id' o o' ho ho' (Order.isBasket_iff.mpr hbasket)
      (Order.isBasket_iff.mpr hbasket') hbuyer
  · intro id o ho
    exact (hlawful.orders id o ho).2.2
  · intro Q hlater id o ho
    obtain ⟨o', ho', hbecomes⟩ := Later.keepsOrders hlater h.lawful id o ho
    refine ⟨o', ho', hbecomes.buyer, hbecomes.createdAt, fun hnew => ?_⟩
    rcases hbecomes.status with hsame | ⟨hbasket, -⟩
    · exact hsame.trans hnew
    · rw [hnew] at hbasket
      cases hbasket

/-- The steps of `phoneOrder` up to the end of the checkout. -/
def checkoutSteps : List Nat := List.replicate 13 0 ++ List.replicate 6 1 ++ List.replicate 10 2

/-- The order is then placed for good, and its contact is the buyer's. -/
theorem Reachable.orders_lawful_in_phoneOrder : ∃ (P : Pool) (o : Order),
    P.Reachable Program.ThroughServices ∧ P.world.store.book.orders.get? ⟨1⟩ = some o ∧
      o.status = .new ∧ o.contact = some ⟨1⟩ ∧
      (∃ x, P.world.store.book.contacts.get? ⟨1⟩ = some x ∧ x.user = o.buyer) ∧
      ∀ Q, Later Program.ThroughServices P Q →
        ∃ o', Q.world.store.book.orders.get? ⟨1⟩ = some o' ∧ o'.buyer = ⟨7⟩ ∧ o'.status = .new := by
  have hplay : (Pool.play checkoutSteps ⟨.start ⟨0, 0⟩ 3, phoneOrder.map .start⟩).any (fun P =>
      decide (P.world.store.book.orders.get? ⟨1⟩ = some ⟨⟨1⟩, ⟨7⟩, .new, ⟨0, 0⟩, some ⟨1⟩⟩ ∧
        ∀ a ∈ P.activities, a.remainder.isNone = true)) = true := by
    decide +kernel
  obtain ⟨P, hP, hfacts⟩ := (Option.any_eq_true _ _).mp hplay
  obtain ⟨ho, hwhole⟩ := of_decide_eq_true hfacts
  have hreach := (Reachable.begin ⟨0, 0⟩ 3 throughServices_phoneOrder).play hP
  obtain ⟨-, -, hlater, hcontact⟩ := hreach.orders_lawful
  refine ⟨P, _, hreach, ho, rfl, rfl, ?_, fun Q hQ => ?_⟩
  · rcases hcontact _ _ _ ho rfl with hthere | ⟨a, ha, doomed, hclear, -⟩
    · exact hthere
    · have hnone := hwhole a ha
      rw [hclear] at hnone
      cases hnone
  · obtain ⟨o', ho', hbuyer, -, hnew⟩ := hlater Q hQ _ _ ho
    exact ⟨o', ho', hbuyer, hnew rfl⟩

end Pool

end Marketplace
