import Marketplace.Proofs.Order.Lifecycle
set_option autoImplicit false

/-!
# The items of placed orders

The store changes the items of any order that it is asked to.  It is only asked to for baskets of
the buyer whose lock is held, so once an order is placed nobody changes its items; only the second
half of a commit takes away those whose listings are gone.
-/

namespace Marketplace

/-! ## Changes of items -/

/-- The rules let a call change the items of nothing but a basket that has been given. -/
theorem Call.Allowed.itemsOf {c : Call} {k : Insight} (hc : c.Allowed k) {order : OrderId}
    (horder : c.itemsOf? = some order) : .basket order ∈ k.facts := by
  unfold Call.itemsOf? at horder
  split at horder
  · cases horder
    exact hc
  · cases horder
    exact hc
  · cases horder
    exact hc
  · cases horder

/-- The call that the activity makes next. -/
def Activity.nextCall? (a : Activity) : Option Call :=
  match a.program with
  | .done _ => none
  | .call c _ => some c

theorem Activity.nextCall?_eq_some_iff {a : Activity} {c : Call} :
    a.nextCall? = some c ↔ ∃ next, a.program = .call c next := by
  unfold nextCall?
  cases a.program with
  | done _ => simp
  | call d next =>
    constructor
    · rintro ⟨⟩
      exact ⟨next, rfl⟩
    · rintro ⟨_, ⟨⟩⟩
      rfl

/-- A step leaves the items of an order as they are, unless it is a call that is to change just
these or the second half of a commit. -/
theorem Activity.Step.sameItems {w w' : World} {a a' : Activity} (ha : a.Step w w' a')
    (hb : w.store.book.Lawful) {order : OrderId}
    (hcall : ∀ c, a.nextCall? = some c → c.itemsOf? ≠ some order)
    (hcascade : a.remainder ≠ some .cascade) :
    w.store.book.SameItems w'.store.book order := by
  cases ha with
  | @call c next r _ m hprogram _ _ hact =>
    have hnext : a.nextCall? = some c := Activity.nextCall?_eq_some_iff.mpr ⟨next, hprogram⟩
    exact (OrderBook.Change.of_act hact).sameItems hb (hcall c hnext)
  | @finish m hhalf =>
    cases m with
    | cascade => exact absurd hhalf hcascade
    | clear doomed => exact .of_eq rfl
  | drop _ => exact .of_eq (by rw [Activity.release_book])

namespace Pool

variable {P Q : Pool}

/-- Whoever is to change the items of an order holds one lock, that of the order's buyer, and the
order is a basket. -/
theorem Reachable.itemsOf_basket (h : P.Reachable Program.ThroughServices) {a : Activity}
    (ha : a ∈ P.activities) {c : Call} (hnext : a.nextCall? = some c) {order : OrderId}
    (horder : c.itemsOf? = some order) :
    ∃ o, P.world.store.book.orders.get? order = some o ∧ a.locks = [o.buyer] ∧
      o.status = .basket := by
  obtain ⟨next, hprogram⟩ := Activity.nextCall?_eq_some_iff.mp hnext
  obtain ⟨k, hk⟩ := h.knows a ha
  have hfact : .basket order ∈ k.facts := (hk.allowed hprogram).itemsOf horder
  obtain ⟨o, ho, hbuyer, hbasket⟩ := hk.facts _ hfact
  have hlocks := hk.locks
  rw [hbuyer] at hlocks
  exact ⟨o, ho, hlocks, Order.isBasket_iff.mp hbasket⟩

/-- The step is the second half of a commit. -/
inductive Cascades : Pool → Pool → Prop
  | intro {w : World} {a : Activity} (as bs : List Activity) (ha : a.remainder = some .cascade) :
    Cascades ⟨w, as ++ a :: bs⟩
      ⟨Remainder.cascade.finish w, as ++ a.finished .cascade :: bs⟩

theorem Cascades.of_move {w w' : World} {as bs : List Activity} {a a' : Activity}
    (ha : a.Step w w' a') (hcascade : a.remainder = some .cascade) :
    Cascades ⟨w, as ++ a :: bs⟩ ⟨w', as ++ a' :: bs⟩ := by
  cases ha with
  | call _ hwhole =>
    rw [hcascade] at hwhole
    cases hwhole
  | finish hhalf =>
    rw [hcascade] at hhalf
    cases hhalf
    exact .intro as bs hcascade
  | drop hwhole =>
    rw [hcascade] at hwhole
    cases hwhole

/-- The second half of a commit takes items away and does no more to them. -/
theorem Cascades.get?_items (h : P.Cascades Q) {k : OrderItemId} {i : OrderItem}
    (hi : Q.world.store.book.items.get? k = some i) :
    P.world.store.book.items.get? k = some i := by
  cases h with
  | intro as bs ha => exact (Table.get?_filter_eq_some_iff.mp hi).1

/-- The items of a placed order stay as they are in every step but the second half of a commit. -/
theorem Step.sameItems (h : P.Reachable Program.ThroughServices)
    (hst : P.Step Program.ThroughServices Q) {order : OrderId} {o : Order}
    (ho : P.world.store.book.orders.get? order = some o) (hplaced : o.status ≠ .basket) :
    P.world.store.book.SameItems Q.world.store.book order ∨ P.Cascades Q := by
  cases hst with
  | start _ => exact Or.inl (.of_eq rfl)
  | environment clock files => exact Or.inl (.of_eq rfl)
  | @move w w' a a' as bs ha =>
    by_cases hcascade : a.remainder = some .cascade
    · exact Or.inr (.of_move ha hcascade)
    · refine Or.inl (ha.sameItems h.lawful (fun c hnext horder => ?_) hcascade)
      obtain ⟨o', ho', -, hbasket⟩ := h.itemsOf_basket (a := a) (by simp) hnext horder
      rw [ho] at ho'
      cases ho'
      exact hplaced hbasket

/-- An item that a placed order has at a later time it has had before. -/
theorem Reachable.items_later (h : P.Reachable Program.ThroughServices)
    (hlater : Later Program.ThroughServices P Q) {order : OrderId} {o : Order}
    (ho : P.world.store.book.orders.get? order = some o) (hplaced : o.status ≠ .basket)
    {k : OrderItemId} {i : OrderItem} (hi : Q.world.store.book.items.get? k = some i)
    (horder : i.order = order) : P.world.store.book.items.get? k = some i := by
  induction hlater with
  | refl => exact hi
  | @tail Q R hbefore hst ih =>
    obtain ⟨o', ho', hbecomes⟩ := Later.keepsOrders hbefore h.lawful order o ho
    have hplaced' : o'.status ≠ .basket := hbecomes.status_ne_basket hplaced
    rcases Step.sameItems (h.later hbefore) hst ho' hplaced' with hsame | hcascades
    · exact ih ((hsame k i horder).mp hi)
    · exact ih (hcascades.get?_items hi)

/-- Errands lock nothing but their own buyers' orders; whatever program is to add, change or take
away items of an order holds just the lock of the order's buyer, and the order is a basket.  So the
items of a placed order are left alone by every step but the second half of a commit, and at any
later time the order has no items but some of those that it has now, unchanged. -/
theorem Reachable.placed_orders_frozen (h : P.Reachable Program.ThroughServices) :
    (∀ buyer e, (Errand.service buyer e).run.Calls fun c => ∀ user, c = .lock user → user = buyer) ∧
      (∀ a ∈ P.activities, ∀ c order, a.nextCall? = some c → c.itemsOf? = some order →
        ∃ o, P.world.store.book.orders.get? order = some o ∧ a.locks = [o.buyer] ∧
          o.status = .basket) ∧
      ∀ order o, P.world.store.book.orders.get? order = some o → o.status ≠ .basket →
        (∀ Q, P.Step Program.ThroughServices Q →
          P.world.store.book.SameItems Q.world.store.book order ∨ P.Cascades Q) ∧
        ∀ Q, Later Program.ThroughServices P Q → ∀ k i,
          Q.world.store.book.items.get? k = some i → i.order = order →
            P.world.store.book.items.get? k = some i := by
  refine ⟨fun buyer e => (e.calls_service buyer).imp fun c hc => hc.1, ?_, ?_⟩
  · intro a ha c order hnext horder
    exact h.itemsOf_basket ha hnext horder
  · intro order o ho hplaced
    refine ⟨fun Q hst => hst.sameItems h ho hplaced, fun Q hlater k i hi horder => ?_⟩
    exact h.items_later hlater ho hplaced hi horder

/-- After the purchase another buyer is to put the phone into a basket. -/
def laterBuyer : List (Program Unit) :=
  phoneOrder ++ [(Orders.add ⟨8⟩ [⟨some (.int 1), some (.int 2)⟩]).run.bind fun _ => .done ()]

/-- The item goes to that buyer's basket, the second order; and the first order has no item at any
later time but the one that it was placed with. -/
theorem Reachable.placed_orders_frozen_for_laterBuyer : ∃ (P : Pool) (a : Activity) (c : Call)
    (o : Order), P.Reachable Program.ThroughServices ∧ a ∈ P.activities ∧
      a.nextCall? = some c ∧ c.itemsOf? = some ⟨2⟩ ∧
      P.world.store.book.orders.get? ⟨2⟩ = some o ∧ a.locks = [o.buyer] ∧ o.status = .basket ∧
      ∀ Q, Later Program.ThroughServices P Q → ∀ k i,
        Q.world.store.book.items.get? k = some i → i.order = ⟨1⟩ →
          i = ⟨⟨1⟩, ⟨1⟩, ⟨1⟩, ⟨1⟩, 3⟩ := by
  have hadmitted : ∀ p ∈ laterBuyer, p.ThroughServices := by
    intro p hp
    rcases List.mem_append.mp hp with hp | hp
    · exact throughServices_phoneOrder p hp
    · rw [List.mem_singleton.mp hp]
      exact .errand ⟨8⟩ (.add [⟨some (.int 1), some (.int 2)⟩]) fun _ => .done ()
  have hplay : (Pool.play (checkoutSteps ++ List.replicate 3 4)
      ⟨.start ⟨0, 0⟩ 3, laterBuyer.map .start⟩).any (fun P =>
        P.activities.any (fun a => a.nextCall?.any fun c => c.itemsOf? == some ⟨2⟩) &&
        decide (P.world.store.book.orders.get? ⟨1⟩ = some ⟨⟨1⟩, ⟨7⟩, .new, ⟨0, 0⟩, some ⟨1⟩⟩ ∧
          P.world.store.book.items.values = [⟨⟨1⟩, ⟨1⟩, ⟨1⟩, ⟨1⟩, 3⟩])) = true := by
    decide +kernel
  obtain ⟨P, hP, hfacts⟩ := (Option.any_eq_true _ _).mp hplay
  rw [Bool.and_eq_true, List.any_eq_true] at hfacts
  obtain ⟨⟨a, ha, hnext⟩, hfacts⟩ := hfacts
  obtain ⟨c, hnext, hitems⟩ := (Option.any_eq_true _ _).mp hnext
  obtain ⟨ho, hvalues⟩ := of_decide_eq_true hfacts
  have hreach := (Reachable.begin ⟨0, 0⟩ 3 hadmitted).play hP
  obtain ⟨-, hbasket, hfrozen⟩ := hreach.placed_orders_frozen
  obtain ⟨o, ho', hlocks, hstatus⟩ := hbasket a ha c ⟨2⟩ hnext (beq_iff_eq.mp hitems)
  refine ⟨P, a, c, o, hreach, ha, hnext, beq_iff_eq.mp hitems, ho', hlocks, hstatus, ?_⟩
  intro Q hlater k i hi horder
  have hold := (hfrozen ⟨1⟩ _ ho nofun).2 Q hlater k i hi horder
  have hmem : i ∈ P.world.store.book.items.values := Table.mem_values_iff.mpr ⟨k, hold⟩
  rw [hvalues] at hmem
  exact List.mem_singleton.mp hmem

end Pool

end Marketplace
