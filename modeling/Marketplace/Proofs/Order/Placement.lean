import Marketplace.Proofs.Order.Frozen
set_option autoImplicit false

/-!
# Items at the placing of an order

A checkout counts the items of the basket and then places the order, and in between nobody else gets
at them through services.  The one thing that does is the second half of a commit, for imports do
not wait for buyers: an order may lose its last item just before it is placed.

So that an order is placed with items is not an invariant of pools, but one of runs without such a
step (`Pool.CalmStep`).  The run in which the last item goes is given at the end
(`exists_placed_without_items`).
-/

namespace Marketplace

/-- The order that the call is to place. -/
def Call.placed? : Call → Option OrderId
  | .store (.orders (.place order _)) => some order
  | _ => none

/-- The rules let an order be placed only by its buyer and right after its items have been
counted. -/
theorem Call.Allowed.placed {c : Call} {k : Insight} (hc : c.Allowed k) {order : OrderId}
    (horder : c.placed? = some order) : .order order ∈ k.facts ∧ .counted order ∈ k.facts := by
  unfold Call.placed? at horder
  split at horder
  · cases horder
    exact ⟨hc.1, hc.2.2⟩
  · cases horder

/-- The call that places an order is not one that changes items, so the items that have been counted
are there when it has been made. -/
theorem Call.itemsOf?_of_placed {c : Call} {order : OrderId} (h : c.placed? = some order) :
    c.itemsOf? = none := by
  unfold Call.placed? at h
  split at h
  · rfl
  · cases h

namespace OrderBook

variable {b b' : OrderBook} {order : OrderId}

theorem one_le_itemCount_iff :
    1 ≤ b.itemCount order ↔ ∃ k i, b.items.get? k = some i ∧ i.order = order := by
  unfold itemCount
  rw [Nat.succ_le_iff, List.length_pos_iff_exists_mem]
  constructor
  · rintro ⟨i, hi⟩
    obtain ⟨⟨k, hk⟩, horder⟩ := mem_itemsOf.mp hi
    exact ⟨k, i, hk, horder⟩
  · rintro ⟨k, i, hk, horder⟩
    exact ⟨i, mem_itemsOf.mpr ⟨⟨k, hk⟩, horder⟩⟩

theorem SameItems.one_le_itemCount (h : b.SameItems b' order) (hcount : 1 ≤ b.itemCount order) :
    1 ≤ b'.itemCount order := by
  obtain ⟨k, i, hi, horder⟩ := one_le_itemCount_iff.mp hcount
  exact one_le_itemCount_iff.mpr ⟨k, i, (h k i horder).mpr hi, horder⟩

end OrderBook

/-- What a count of items tells is true at the moment.  It may be out of date soon, which is why a
count is no fact that lasts. -/
theorem World.itemCount_of_tells {w w' : World} {buyer : Option UserId} {c : Call} {r : c.Reply}
    {m : Option Remainder} (hact : w.act c = some (r, w', m)) {order : OrderId}
    (htells : c.tells? buyer r = some (.counted order)) :
    1 ≤ w'.store.book.itemCount order := by
  unfold Call.tells? at htells
  split at htells
  · split at htells <;> cases htells
  · split at htells <;> cases htells
  · split at htells <;> cases htells
  · split at htells
    · cases htells
    · rename_i id n hpositive
      cases htells
      simp only [act, handle, StoreCall.step, OrderCall.step, Option.map_some,
        Option.some.injEq, Prod.mk.injEq, Except.ok.injEq] at hact
      obtain ⟨hn, rfl, -⟩ := hact
      rw [← hn] at hpositive
      exact Nat.one_le_iff_ne_zero.mpr hpositive
  · cases htells
  · cases htells

namespace Activity

variable {w w' : World} {a a' x : Activity} {k k' : Insight}

/-- The order that the activity is just about to place: its next call is the one that places it. -/
def placing? (a : Activity) : Option OrderId := a.nextCall?.bind Call.placed?

theorem placing?_eq_some_iff {order : OrderId} :
    a.placing? = some order ↔ ∃ c next, a.program = .call c next ∧ c.placed? = some order := by
  unfold placing?
  rw [Option.bind_eq_some_iff]
  constructor
  · rintro ⟨c, hnext, horder⟩
    obtain ⟨next, hprogram⟩ := nextCall?_eq_some_iff.mp hnext
    exact ⟨c, next, hprogram, horder⟩
  · rintro ⟨c, next, hprogram, horder⟩
    exact ⟨c, nextCall?_eq_some_iff.mpr ⟨next, hprogram⟩, horder⟩

/-- An activity that comes to the placing of an order has just counted its items.  The rules of
conduct leave no call in between. -/
theorem Step.stocked (ha : a.Step w w' a') (hk : a.Knows w k)
    (hcalm : a.placing?.isSome = true → a.remainder ≠ some .cascade) {order : OrderId}
    (hcount : a.placing? = some order → 1 ≤ w.store.book.itemCount order)
    (horder : a'.placing? = some order) : 1 ≤ w'.store.book.itemCount order := by
  cases ha with
  | @call c next r _ m hprogram hwhole hallows hact =>
    obtain ⟨d, next', hprogram', hplaced⟩ := placing?_eq_some_iff.mp horder
    have hconduct := hk.conduct
    rw [hprogram] at hconduct
    have hnext : (next r).Conduct (fun _ k => k.buyer = none) (k.after c r) := hconduct.2 r
    have hafter : next r = .call d next' := hprogram'
    rw [hafter] at hnext
    obtain ⟨-, hcounted⟩ := hnext.1.placed hplaced
    rcases Insight.mem_after.mp hcounted with htells | ⟨-, hlasts⟩
    · exact World.itemCount_of_tells hact htells
    · cases hlasts
  | @finish m hhalf =>
    cases m with
    | cascade =>
      have hbefore : a.placing? = some order := horder
      exact absurd hhalf (hcalm (by rw [hbefore]; rfl))
    | clear doomed => exact hcount horder
  | drop _ => cases horder

/-- The items of an order that is about to be placed are left alone by others, except that the
second half of a commit may take them away. -/
theorem Step.sameItems_of_placing (ha : a.Step w w' a') (hb : w.store.book.Lawful)
    (hk : a.Knows w k) (hx : x.Knows w k') (hlocks : ∀ buyer ∈ a.locks, buyer ∉ x.locks)
    {order : OrderId} (horder : x.placing? = some order) (hcascade : a.remainder ≠ some .cascade) :
    w.store.book.SameItems w'.store.book order := by
  refine ha.sameItems hb (fun c hnext hitems => ?_) hcascade
  obtain ⟨next, hprogram⟩ := nextCall?_eq_some_iff.mp hnext
  obtain ⟨d, next', hprogram', hplaced⟩ := placing?_eq_some_iff.mp horder
  obtain ⟨o, ho, htheirs⟩ := hk.owner (Or.inl ((hk.allowed hprogram).itemsOf hitems))
  obtain ⟨o', ho', hmine⟩ := hx.owner (Or.inr ((hx.allowed hprogram').placed hplaced).1)
  rw [ho] at ho'
  cases ho'
  exact hlocks o.buyer (by simp [htheirs]) (by simp [hmine])

/-- Nothing but a call that places it makes an order that was a basket a placed one. -/
theorem Step.placing_of_placed (ha : a.Step w w' a') (hb : w.store.book.Lawful) {order : OrderId}
    {o o' : Order} (ho : w.store.book.orders.get? order = some o) (hbasket : o.status = .basket)
    (ho' : w'.store.book.orders.get? order = some o') (hplaced : o'.status ≠ .basket) :
    a.placing? = some order ∧ a.remainder = none := by
  by_contra hnot
  have hplace : a.remainder = none → ∀ contact next,
      a.program ≠ .call (.store (.orders (.place order contact))) next := by
    intro hwhole contact next hprogram
    exact hnot ⟨placing?_eq_some_iff.mpr ⟨_, next, hprogram, rfl⟩, hwhole⟩
  obtain ⟨p, hp, -, hsame⟩ := ha.turns.isBasket hb ho hplace
  rw [ho'] at hp
  cases hp
  rw [Order.isBasket_iff.mpr hbasket] at hsame
  exact hplaced (Order.isBasket_iff.mp hsame)

end Activity

namespace Pool

variable {P P₀ Q : Pool}

/-- Somebody is just about to place an order. -/
def Placing (P : Pool) : Prop := ∃ a ∈ P.activities, a.placing?.isSome = true

/-- A step that is not the second half of a commit while somebody is about to place an order.
Imports may go on otherwise, also while people check out. -/
def CalmStep (P Q : Pool) : Prop :=
  P.Step Program.ThroughServices Q ∧ (P.Placing → ¬P.Cascades Q)

/-- The orders that are just about to be placed have items.  Only for these it is an invariant,
since any other basket may be empty. -/
def Stocked (P : Pool) : Prop :=
  ∀ a ∈ P.activities, ∀ order, a.placing? = some order → 1 ≤ P.world.store.book.itemCount order

theorem stocked_of_not_placing (h : ¬P.Placing) : P.Stocked := by
  intro a ha order horder
  exact absurd ⟨a, ha, by rw [horder]; rfl⟩ h

/-- Other activities leave the items alone, since they do not hold the buyer's lock, and the
activity itself has counted them. -/
theorem Stocked.step (h : P.Stocked) (hP : P.Reachable Program.ThroughServices)
    (hst : P.CalmStep Q) : Q.Stocked := by
  obtain ⟨hst, hcalm⟩ := hst
  cases hst with
  | @start w as p hp =>
    intro x hx order horder
    rcases List.mem_append.mp hx with hx | hx
    · exact h x hx order horder
    · -- A program that has not begun has not counted anything.
      rw [List.mem_singleton.mp hx] at horder
      obtain ⟨c, next, hprogram, hplaced⟩ := Activity.placing?_eq_some_iff.mp horder
      have hallowed := (Activity.knows_start hp w).allowed hprogram
      cases (hallowed.placed hplaced).2
  | environment clock files => exact h
  | @move w w' a a' as bs ha =>
    obtain ⟨k, hk⟩ := hP.knows a (by simp)
    have hnone : ∀ x ∈ as ++ a :: bs, x.placing?.isSome = true → a.remainder ≠ some .cascade :=
      fun x hx hplacing hcascade => hcalm ⟨x, hx, hplacing⟩ (.of_move ha hcascade)
    have hother : ∀ x, x ∈ as ∨ x ∈ bs → ∀ order, x.placing? = some order →
        1 ≤ w'.store.book.itemCount order := by
      intro x hx order horder
      have hmem : x ∈ as ++ a :: bs := by rcases hx with hx | hx <;> simp [hx]
      obtain ⟨k', hk'⟩ := hP.knows x hmem
      have hsame := ha.sameItems_of_placing hP.lawful hk hk'
        (fun buyer => hP.lock_exclusive hx) horder (hnone x hmem (by rw [horder]; rfl))
      exact hsame.one_le_itemCount (h x hmem order horder)
    intro x hx order horder
    rcases List.mem_append.mp hx with hx | hx
    · exact hother x (Or.inl hx) order horder
    · rcases List.mem_cons.mp hx with rfl | hx
      · exact ha.stocked hk (hnone a (by simp)) (h a (by simp) order) horder
      · exact hother x (Or.inr hx) order horder

/-- From whenever on nobody is about to place an order: as long as no commit takes items away while
somebody is, every order that is placed has an item at that moment. -/
theorem Reachable.placed_with_items (h : P₀.Reachable Program.ThroughServices)
    (hnobody : ¬P₀.Placing) (hcalm : Relation.ReflTransGen CalmStep P₀ P)
    (hst : P.Step Program.ThroughServices Q) {order : OrderId} {o o' : Order}
    (ho : P.world.store.book.orders.get? order = some o) (hbasket : o.status = .basket)
    (ho' : Q.world.store.book.orders.get? order = some o') (hnew : o'.status = .new) :
    1 ≤ Q.world.store.book.itemCount order := by
  have hP : P.Reachable Program.ThroughServices ∧ P.Stocked := by
    clear hst ho
    induction hcalm with
    | refl => exact ⟨h, stocked_of_not_placing hnobody⟩
    | tail _ hst ih => exact ⟨ih.1.step hst.1, ih.2.step ih.1 hst⟩
  obtain ⟨hreach, hstocked⟩ := hP
  have hplaced : o'.status ≠ .basket := by
    rw [hnew]
    exact nofun
  cases hst with
  | start _ =>
    rw [ho] at ho'
    cases ho'
    exact absurd hbasket hplaced
  | environment clock files =>
    rw [ho] at ho'
    cases ho'
    exact absurd hbasket hplaced
  | @move w w' a a' as bs ha =>
    obtain ⟨hplacing, hwhole⟩ := ha.placing_of_placed hreach.lawful ho hbasket ho' hplaced
    have hcount := hstocked a (by simp) order hplacing
    refine (ha.sameItems hreach.lawful (fun c hnext hitems => ?_) ?_).one_le_itemCount hcount
    · rw [Activity.placing?, hnext] at hplacing
      rw [Call.itemsOf?_of_placed hplacing] at hitems
      cases hitems
    · rw [hwhole]
      exact nofun

/-- The checkout of `phoneOrder` while nobody imports. -/
theorem Reachable.placed_with_items_in_phoneOrder : ∃ P₀ P Q : Pool, ∃ o o' : Order,
    P₀.Reachable Program.ThroughServices ∧ ¬P₀.Placing ∧
      Relation.ReflTransGen CalmStep P₀ P ∧ P.Step Program.ThroughServices Q ∧
      P.world.store.book.orders.get? ⟨1⟩ = some o ∧ o.status = .basket ∧
      Q.world.store.book.orders.get? ⟨1⟩ = some o' ∧ o'.status = .new ∧
      1 ≤ Q.world.store.book.itemCount ⟨1⟩ := by
  have hplay : (Pool.play (List.replicate 13 0 ++ List.replicate 6 1 ++ List.replicate 3 2)
      ⟨.start ⟨0, 0⟩ 3, phoneOrder.map .start⟩).any (fun P₀ =>
        P₀.activities.all (fun a => a.placing?.isNone) &&
        (Pool.play [2] P₀).any fun P =>
          (P.world.store.book.orders.get? ⟨1⟩).any (fun o => o.status == .basket) &&
          (Pool.play [2] P).any fun Q =>
            (Q.world.store.book.orders.get? ⟨1⟩).any fun o' => o'.status == .new) = true := by
    decide +kernel
  simp only [Option.any_eq_true, Bool.and_eq_true, List.all_eq_true, beq_iff_eq] at hplay
  obtain ⟨P₀, hP₀, hnone, P, hP, ⟨o, ho, hbasket⟩, Q, hQ, o', ho', hnew⟩ := hplay
  have hreach := (Reachable.begin ⟨0, 0⟩ 3 throughServices_phoneOrder).play hP₀
  have hnobody : ¬P₀.Placing := by
    rintro ⟨a, ha, hplacing⟩
    have hno := hnone a ha
    rw [Option.isNone_iff_eq_none] at hno
    rw [hno] at hplacing
    cases hplacing
  have hcalm : Relation.ReflTransGen CalmStep P₀ P :=
    .single ⟨.play hP, fun hplacing => absurd hplacing hnobody⟩
  have hst : P.Step Program.ThroughServices Q := .play hQ
  exact ⟨P₀, P, Q, o, o', hreach, hnobody, hcalm, hst, ho, hbasket, ho', hnew,
    hreach.placed_with_items hnobody hcalm hst ho hbasket ho' hnew⟩

/-- In general an order may be placed without items: when the shop of `phoneOrder` imports anew just
between the counting and the placing, the item goes with its listing. -/
theorem exists_placed_without_items : ∃ P Q : Pool, ∃ o o' : Order,
    P.Reachable Program.ThroughServices ∧ P.Step Program.ThroughServices Q ∧
      P.world.store.book.orders.get? ⟨1⟩ = some o ∧ o.status = .basket ∧
      Q.world.store.book.orders.get? ⟨1⟩ = some o' ∧ o'.status = .new ∧
      Q.world.store.book.itemCount ⟨1⟩ = 0 := by
  have hplay : (Pool.play
      (List.replicate 13 0 ++ List.replicate 6 1 ++ List.replicate 4 2 ++ List.replicate 11 3)
      ⟨.start ⟨0, 0⟩ 3, phoneOrder.map .start⟩).any (fun P =>
        (P.world.store.book.orders.get? ⟨1⟩).any (fun o => o.status == .basket) &&
        (Pool.play [2] P).any fun Q =>
          (Q.world.store.book.orders.get? ⟨1⟩).any (fun o' => o'.status == .new) &&
          Q.world.store.book.itemCount ⟨1⟩ == 0) = true := by
    decide +kernel
  simp only [Option.any_eq_true, Bool.and_eq_true, beq_iff_eq] at hplay
  obtain ⟨P, hP, ⟨o, ho, hbasket⟩, Q, hQ, ⟨o', ho', hnew⟩, hcount⟩ := hplay
  have hreach := (Reachable.begin ⟨0, 0⟩ 3 throughServices_phoneOrder).play hP
  exact ⟨P, Q, o, o', hreach, .play hQ, ho, hbasket, ho', hnew, hcount⟩

end Pool

end Marketplace
