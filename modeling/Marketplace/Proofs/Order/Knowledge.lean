import Marketplace.Proofs.Order.Conduct
import Marketplace.Proofs.Program.Locks
set_option autoImplicit false

/-!
# What programs know is true

Each activity of programs that go through services knows things of the world (`Activity.Knows`), and
they stay true whatever others do.  Nothing but placing an order could make a basket out of date,
and who places it would have to hold the very lock that the activity holds.

Facts are of the kind that are read once and relied on later: that an order is a basket, that it is
the buyer's, that a contact is.  A proof that a program relies on nothing else is a proof about its
text; that the facts are still true when it does is a proof about all other programs, and the two
meet in `Activity.Knows`.
-/

namespace Marketplace

/-! ## What a step does to the order book -/

namespace Activity

variable {w w' : World} {a a' : Activity}

/-- The book after a step of the activity. -/
inductive Turns (a : Activity) (w : World) : OrderBook → Prop
  | call {c : Call} {next : c.Reply → Program Unit} {b : OrderBook}
      (hprogram : a.program = .call c next) (hwhole : a.remainder = none)
      (hchange : w.store.book.Change w.store.catalog.listings.contains c b) : Turns a w b
  | cascade (hhalf : a.remainder = some .cascade) :
    Turns a w (w.store.book.dropUnlisted w.store.catalog.listings.contains)
  | clear {doomed : Table ContactId Contact} (hhalf : a.remainder = some (.clear doomed)) :
    Turns a w (w.store.book.clearContacts doomed)
  | drop : Turns a w w.store.book

/-- Giving back locks and drafts does not touch the book. -/
theorem release_book (a : Activity) (w : World) : (a.release w).store.book = w.store.book := by
  simp only [release]
  split <;> rfl

/-- Each step of an activity turns the book as one of its calls does, or as the second half of
one. -/
theorem Step.turns (h : a.Step w w' a') : a.Turns w w'.store.book := by
  cases h with
  | call hprogram hwhole _ hact => exact .call hprogram hwhole (.of_act hact)
  | @finish m hhalf =>
    cases m with
    | cascade => exact .cascade hhalf
    | clear doomed => exact .clear hhalf
  | drop _ =>
    rw [release_book]
    exact .drop

namespace Turns

variable {b : OrderBook}

/-- Every turn of the book keeps its laws. -/
theorem lawful (h : a.Turns w b) (hb : w.store.book.Lawful) : b.Lawful := by
  cases h with
  | call _ _ hchange => exact hb.change hchange
  | cascade _ => exact hb.dropUnlisted _
  | clear _ => exact hb.clearContacts _
  | drop => exact hb

/-- No turn of the book loses an order. -/
theorem keepsOrders (h : a.Turns w b) (hb : w.store.book.Lawful) : w.store.book.KeepsOrders b := by
  cases h with
  | call _ _ hchange => exact hchange.keepsOrders hb
  | cascade _ => exact .of_eq rfl
  | clear _ => exact w.store.book.keepsOrders_clearContacts _
  | drop => exact .of_eq rfl

/-- A basket stays one, unless the activity is to place it. -/
theorem isBasket (h : a.Turns w b) (hb : w.store.book.Lawful) {id : OrderId} {o : Order}
    (ho : w.store.book.orders.get? id = some o)
    (hplace : a.remainder = none → ∀ contact next,
      a.program ≠ .call (.store (.orders (.place id contact))) next) :
    ∃ o', b.orders.get? id = some o' ∧ o.Becomes o' ∧ o'.isBasket = o.isBasket := by
  cases h with
  | call hprogram hwhole hchange =>
    obtain ⟨o', ho', hbecomes, hsame | ⟨contact, rfl⟩⟩ := hchange.order hb ho
    · exact ⟨o', ho', hbecomes, hsame⟩
    · exact absurd hprogram (hplace hwhole contact _)
  | cascade _ => exact ⟨o, ho, .refl o, rfl⟩
  | @clear doomed _ =>
    refine ⟨o.cleared doomed, ?_, .cleared o doomed, o.isBasket_cleared doomed⟩
    rw [OrderBook.get?_clearContacts, ho]
    rfl
  | drop => exact ⟨o, ho, .refl o, rfl⟩

theorem contact_owner (h : a.Turns w b) {id : ContactId} {x' : Contact}
    (hid : id.value ≤ w.store.book.lastContact) (hx' : b.contacts.get? id = some x') :
    ∃ x, w.store.book.contacts.get? id = some x ∧ x.user = x'.user := by
  cases h with
  | call _ _ hchange => exact hchange.contact_owner hid hx'
  | cascade _ => exact ⟨x', hx', rfl⟩
  | clear _ => exact ⟨x', hx', rfl⟩
  | drop => exact ⟨x', hx', rfl⟩

theorem lastContact_le (h : a.Turns w b) : w.store.book.lastContact ≤ b.lastContact := by
  cases h with
  | call _ _ hchange => exact hchange.lastContact_le
  | cascade _ => exact Int.le_refl _
  | clear _ => exact Int.le_refl _
  | drop => exact Int.le_refl _

end Turns

end Activity

/-- The count of the identifiers of jobs never goes back. -/
theorem Activity.Step.issued_le {w w' : World} {a a' : Activity} (h : a.Step w w' a') :
    w.issued ≤ w'.issued := by
  cases h with
  | call _ _ _ hact => exact World.issued_le_of_act hact
  | @finish m _ => cases m <;> exact Nat.le_refl _
  | drop _ => exact Nat.le_refl _

/-! ## Facts -/

namespace Fact

/-- The fact is true of the world and of the buyer.  Facts are chosen so that they last: what others
may change at any time, such as the number of items, is no fact that anything can be concluded
from. -/
def Holds (w : World) (buyer : Option UserId) : Fact → Prop
  | basket id => ∃ o, w.store.book.orders.get? id = some o ∧ buyer = some o.buyer ∧
    o.isBasket = true
  | order id => ∃ o, w.store.book.orders.get? id = some o ∧ buyer = some o.buyer
  | contact id => id.value ≤ w.store.book.lastContact ∧
    ∀ x, w.store.book.contacts.get? id = some x → buyer = some x.user
  | counted _ => True
  | given id => ∃ millis count, count ≤ w.issued ∧ id = .ofClock millis count

variable {w w' : World} {buyer : Option UserId} {f : Fact}

/-- Facts outlast every step; only a basket is out of date when it is placed.  Identifiers are not
given twice and orders are not deleted, which is why the others last. -/
theorem Holds.step (hf : f.Holds w buyer) {a a' : Activity} (ha : a.Step w w' a')
    (hb : w.store.book.Lawful)
    (hplace : ∀ id contact next, f = .basket id → a.remainder = none →
      a.program ≠ .call (.store (.orders (.place id contact))) next) : f.Holds w' buyer := by
  have hturns := ha.turns
  cases f with
  | basket id =>
    obtain ⟨o, ho, rfl, hbasket⟩ := hf
    obtain ⟨o', ho', hbecomes, hsame⟩ := hturns.isBasket hb ho
      fun hwhole _ _ => hplace id _ _ rfl hwhole
    exact ⟨o', ho', congrArg some hbecomes.buyer.symm, hsame.trans hbasket⟩
  | order id =>
    obtain ⟨o, ho, rfl⟩ := hf
    obtain ⟨o', ho', hbecomes⟩ := hturns.keepsOrders hb id o ho
    exact ⟨o', ho', congrArg some hbecomes.buyer.symm⟩
  | contact id =>
    refine ⟨Int.le_trans hf.1 hturns.lastContact_le, fun x' hx' => ?_⟩
    obtain ⟨x, hx, huser⟩ := hturns.contact_owner hf.1 hx'
    rw [← huser]
    exact hf.2 x hx
  | counted id => trivial
  | given id =>
    obtain ⟨millis, count, hcount, rfl⟩ := hf
    exact ⟨millis, count, Nat.le_trans hcount ha.issued_le, rfl⟩

/-- What an answer tells is true at the moment of the answer. -/
theorem holds_of_tells {c : Call} {r : c.Reply} {m : Option Remainder}
    (hact : w.act c = some (r, w', m)) (hb : w.store.book.Lawful)
    (htells : c.tells? buyer r = some f) : f.Holds w' buyer := by
  unfold Call.tells? at htells
  split at htells
  · rename_i user o
    split at htells
    · cases htells
      cases hact
      obtain ⟨ho, hbuyer, hbasket⟩ := w.store.book.getOrCreateBasket_spec hb user w.clock
      exact ⟨_, ho, by rwa [hbuyer], hbasket⟩
    · cases htells
  · rename_i id o
    split at htells
    · rename_i hbuyer
      cases htells
      simp only [World.act, World.handle, StoreCall.step, OrderCall.step, Option.map_some,
        Option.some.injEq, Prod.mk.injEq, Except.ok.injEq] at hact
      obtain ⟨ho, rfl, -⟩ := hact
      exact ⟨o, ho, hbuyer⟩
    · cases htells
  · rename_i user id x
    split at htells
    · rename_i hbuyer
      cases htells
      simp only [World.act, World.handle, StoreCall.step, ContactCall.step, Option.map_some,
        Option.some.injEq, Prod.mk.injEq, Except.ok.injEq] at hact
      obtain ⟨hx, rfl, -⟩ := hact
      obtain ⟨hx, huser⟩ := Option.filter_eq_some_iff.mp hx
      refine ⟨hb.contacts id x hx, fun y hy => ?_⟩
      rw [hx] at hy
      cases hy
      rw [hbuyer, beq_iff_eq.mp huser]
    · cases htells
  · split at htells
    · cases htells
    · cases htells
      trivial
  · cases htells
    cases hact
    exact ⟨_, _, Nat.le_refl _, rfl⟩
  · cases htells

end Fact

/-! ## What activities know -/

namespace Activity

variable {w w' : World} {a a' x : Activity} {k : Insight}

/-- The activity goes on by the rules, holds the lock of the buyer that it works for, and what it
knows is true.  The three belong together: the rules allow a call only with the facts it needs, and
the facts concern the one buyer whose orders nobody else may work on. -/
structure Knows (a : Activity) (w : World) (k : Insight) : Prop where
  conduct : a.program.Conduct (fun _ k => k.buyer = none) k
  locks : a.locks = k.buyer.toList
  facts : ∀ f ∈ k.facts, f.Holds w k.buyer

/-- A program that has not begun holds no lock and need not know anything. -/
theorem knows_start {p : Program Unit} (hp : p.ThroughServices) (w : World) :
    (start p).Knows w ⟨none, []⟩ :=
  ⟨hp.conduct rfl, rfl, nofun⟩

namespace Knows

/-- What the activity knows of an order is that it belongs to the one buyer whose lock it holds. -/
theorem owner (h : a.Knows w k) {id : OrderId}
    (hfact : .basket id ∈ k.facts ∨ .order id ∈ k.facts) :
    ∃ o, w.store.book.orders.get? id = some o ∧ a.locks = [o.buyer] := by
  have hlocks := h.locks
  rcases hfact with hfact | hfact
  · obtain ⟨o, ho, hbuyer, -⟩ := h.facts _ hfact
    rw [hbuyer] at hlocks
    exact ⟨o, ho, hlocks⟩
  · obtain ⟨o, ho, hbuyer⟩ := h.facts _ hfact
    rw [hbuyer] at hlocks
    exact ⟨o, ho, hlocks⟩

/-- What the rules ask for the next call, where there is one. -/
theorem allowed (h : a.Knows w k) {c : Call} {next : c.Reply → Program Unit}
    (hprogram : a.program = .call c next) : c.Allowed k := by
  have hconduct := h.conduct
  rw [hprogram] at hconduct
  exact hconduct.1

/-- Taking and giving back locks by the rules. -/
theorem locksAfter_eq (hlocks : a.locks = k.buyer.toList) {c : Call} (hc : c.Allowed k) :
    a.locksAfter c = (k.buyerAfter c).toList := by
  cases c with
  | lock buyer =>
    have hnone : k.buyer = none := hc
    simp only [locksAfter, hlocks, hnone, Insight.buyerAfter, Option.toList]
  | unlock buyer =>
    have hsome : k.buyer = some buyer := hc
    simp only [locksAfter, hlocks, hsome, Insight.buyerAfter, Option.toList,
      List.erase_cons_head]
  | _ => exact hlocks

/-- No call for a lock tells anything. -/
theorem buyerAfter_of_tells {f : Fact} {c : Call} {r : c.Reply}
    (htells : c.tells? k.buyer r = some f) : k.buyerAfter c = k.buyer := by
  cases c with
  | lock _ => cases htells
  | unlock _ => cases htells
  | _ => rfl

/-- What lasts when a lock is taken or given back does not concern a buyer. -/
theorem holds_of_lasts {f : Fact} {c : Call} (hlasts : f.lasts c = true)
    (hf : f.Holds w k.buyer) : f.Holds w (k.buyerAfter c) := by
  cases f with
  | given job => exact hf
  | _ =>
    cases c with
    | lock _ => cases hlasts
    | unlock _ => cases hlasts
    | _ => exact hf

/-- What the activity knows after a step of its own: what it knew and has not given up, and what the
answer has told it. -/
theorem step (h : a.Knows w k) (ha : a.Step w w' a') (hb : w.store.book.Lawful) :
    ∃ k', a'.Knows w' k' := by
  have hstep := ha
  cases ha with
  | @call c next r _ m hprogram hwhole hallows hact =>
    have hallowed := h.allowed hprogram
    have hnext := h.conduct
    rw [hprogram] at hnext
    refine ⟨k.after c r, hnext.2 r, locksAfter_eq h.locks hallowed, fun f hf => ?_⟩
    rcases Insight.mem_after.mp hf with htells | ⟨hold, hlasts⟩
    · rw [show (k.after c r).buyer = k.buyer from buyerAfter_of_tells htells]
      exact Fact.holds_of_tells hact hb htells
    · refine holds_of_lasts hlasts ((h.facts f hold).step hstep hb ?_)
      rintro id contact next' rfl - hplace
      rw [hprogram] at hplace
      cases hplace
      cases hlasts
  | @finish m hhalf =>
    have hfacts : ∀ f ∈ k.facts, f.Holds (m.finish w) k.buyer := by
      intro f hf
      refine (h.facts f hf).step hstep hb fun id contact next _ hwhole => ?_
      rw [hhalf] at hwhole
      cases hwhole
    cases m <;> exact ⟨k, h.conduct, h.locks, hfacts⟩
  | drop _ =>
    exact ⟨⟨none, []⟩, rfl, rfl, nofun⟩

/-- What the activity knows after a step of another one that does not hold its lock.  A basket that
it knows of cannot be placed by the other, who would have to know of it as well. -/
theorem step_other (h : x.Knows w k) (ha : a.Step w w' a') (hb : w.store.book.Lawful)
    {k' : Insight} (hother : a.Knows w k') (hlocks : ∀ buyer ∈ a.locks, buyer ∉ x.locks) :
    x.Knows w' k := by
  refine ⟨h.conduct, h.locks, fun f hf => (h.facts f hf).step ha hb ?_⟩
  rintro id contact next rfl - hprogram
  have horder : .order id ∈ k'.facts := (hother.allowed hprogram).1
  obtain ⟨o, ho, hmine⟩ := h.owner (Or.inl hf)
  obtain ⟨o', ho', htheirs⟩ := hother.owner (Or.inr horder)
  rw [ho] at ho'
  cases ho'
  exact hlocks o.buyer (by simp [htheirs]) (by simp [hmine])

end Knows

end Activity

namespace Pool

variable {admitted : Program Unit → Prop} {P Q : Pool}

/-! ## All that happens in a pool -/

theorem Step.lawful (hst : P.Step admitted Q) (hb : P.world.store.book.Lawful) :
    Q.world.store.book.Lawful := by
  cases hst with
  | start _ => exact hb
  | move as bs ha => exact ha.turns.lawful hb
  | environment clock files => exact hb

/-- Whatever programs run, the order book obeys its laws. -/
theorem Reachable.lawful (h : P.Reachable admitted) : P.world.store.book.Lawful := by
  induction h with
  | start clock retention => exact .empty
  | step _ hst ih => exact hst.lawful ih

/-- Programs that go through services know nothing that is not true.  Exclusion is used here: of two
activities that know of one buyer's orders, one at most holds the lock. -/
theorem Reachable.knows (h : P.Reachable Program.ThroughServices) :
    ∀ a ∈ P.activities, ∃ k, a.Knows P.world k := by
  induction h with
  | start clock retention => simp
  | @step P Q hP hst ih =>
    cases hst with
    | start hp =>
      intro x hx
      rcases List.mem_append.mp hx with hx | hx
      · exact ih x hx
      · rw [List.mem_singleton.mp hx]
        exact ⟨_, Activity.knows_start hp _⟩
    | environment clock files =>
      intro x hx
      obtain ⟨k, hk⟩ := ih x hx
      refine ⟨k, hk.conduct, hk.locks, fun f hf => ?_⟩
      have hold := hk.facts f hf
      cases f <;> exact hold
    | @move w w' a a' as bs ha =>
      obtain ⟨ka, hka⟩ := ih a (by simp)
      have hother : ∀ x, x ∈ as ∨ x ∈ bs → ∃ k, x.Knows w' k := by
        intro x hx
        obtain ⟨k, hk⟩ := ih x (by rcases hx with hx | hx <;> simp [hx])
        exact ⟨k, hk.step_other ha hP.lawful hka fun buyer => hP.lock_exclusive hx⟩
      intro x hx
      rcases List.mem_append.mp hx with hx | hx
      · exact hother x (Or.inl hx)
      · rcases List.mem_cons.mp hx with rfl | hx
        · exact hka.step ha hP.lawful
        · exact hother x (Or.inr hx)

end Pool

end Marketplace
