import Marketplace.Proofs.Order.Change
import Marketplace.Proofs.Order.Errand
set_option autoImplicit false

/-!
# How services go about orders

A program that works on orders does so by rules: it changes the items of nothing but a basket that
it has been given while it holds the buyer's lock, and it places nothing but an order and for
nothing but a contact that it has found to be the buyer's, right after it has counted the items.
`Program.Conduct` states the rules by what the program has been told so far; all errands keep them.
-/

namespace Marketplace

/-- What a program may have been told. -/
inductive Fact
  /-- The order is the buyer's basket. -/
  | basket (order : OrderId)
  /-- The order is the buyer's. -/
  | order (order : OrderId)
  /-- The contact is the buyer's. -/
  | contact (contact : ContactId)
  /-- The order had items just now. -/
  | counted (order : OrderId)
  /-- The identifier has been given for a new job. -/
  | given (job : JobId)
  deriving DecidableEq

/-- The fact is not out of date after the call.  What concerns a buyer lasts as long as the lock is
held, a basket until something is placed, and a count no longer than till the next call. -/
def Fact.lasts : Fact → Call → Bool
  | .given _, _ => true
  | .counted _, _ => false
  | _, .lock _ | _, .unlock _ => false
  | .basket _, .store (.orders (.place _ _)) => false
  | _, _ => true

/-- The fact that an answer tells somebody who works for the buyer.  Only what concerns this buyer
is told: the order of somebody else tells nothing. -/
def Call.tells? (buyer : Option UserId) : (c : Call) → c.Reply → Option Fact
  | .store (.orders (.basket user)), .ok o =>
    if buyer = some user then some (.basket o.id) else none
  | .store (.orders (.order id)), .ok (some o) =>
    if buyer = some o.buyer then some (.order id) else none
  | .store (.contacts (.one user id)), .ok (some _) =>
    if buyer = some user then some (.contact id) else none
  | .store (.orders (.itemCount id)), .ok n => if n = (0 : Nat) then none else some (.counted id)
  | .newJobId, id => some (.given id)
  | _, _ => none

/-- Whose lock a program holds, and what it has been told.  Both are read off the calls and their
answers, so no program has to carry them along. -/
structure Insight where
  buyer : Option UserId
  facts : List Fact

namespace Insight

/-- The buyer whose lock the program holds after the call. -/
def buyerAfter (k : Insight) : Call → Option UserId
  | .lock buyer => some buyer
  | .unlock _ => none
  | _ => k.buyer

/-- What the program knows when the call has been answered: what the answer tells, and what the call
has not put out of date. -/
def after (k : Insight) (c : Call) (r : c.Reply) : Insight :=
  ⟨k.buyerAfter c, (c.tells? k.buyer r).toList ++ k.facts.filter (·.lasts c)⟩

theorem mem_after {k : Insight} {c : Call} {r : c.Reply} {f : Fact} :
    f ∈ (k.after c r).facts ↔ c.tells? k.buyer r = some f ∨ f ∈ k.facts ∧ f.lasts c = true := by
  simp [after]

/-- A fact that lasts is still known. -/
theorem mem_after_of_lasts {k : Insight} {c : Call} {r : c.Reply} {f : Fact} (hf : f ∈ k.facts)
    (hlasts : f.lasts c = true) : f ∈ (k.after c r).facts :=
  mem_after.mpr (Or.inr ⟨hf, hlasts⟩)

end Insight

/-- A program that knows so much may make the call.  Calls that are not about orders and locks
anybody may make. -/
def Call.Allowed (k : Insight) : Call → Prop
  | .store (.orders (.insertItem order _ _ _)) => .basket order ∈ k.facts
  | .store (.orders (.updateQuantity order _ _)) => .basket order ∈ k.facts
  | .store (.orders (.deleteItems order _)) => .basket order ∈ k.facts
  | .store (.orders (.place order contact)) =>
    .order order ∈ k.facts ∧ .contact contact ∈ k.facts ∧ .counted order ∈ k.facts
  | .lock _ => k.buyer = none
  | .unlock buyer => k.buyer = some buyer
  | .job (.enqueue j) => .given j.id ∈ k.facts
  | _ => True

/-- What is not reserved is allowed with any knowledge. -/
theorem Call.allowed_of_open {c : Call} (hc : c.isReserved = false) (k : Insight) :
    c.Allowed k := by
  cases c with
  | store c =>
    cases c with
    | orders c => cases c <;> trivial
    | _ => trivial
  | job c => cases c <;> trivial
  | lock _ => cases hc
  | unlock _ => cases hc
  | _ => trivial

theorem Insight.buyerAfter_of_open {c : Call} (hc : c.isReserved = false) (k : Insight) :
    k.buyerAfter c = k.buyer := by
  cases c with
  | lock _ => cases hc
  | unlock _ => cases hc
  | _ => rfl

namespace Program

variable {α β ε : Type} {k : Insight}

/-- Whatever the program is answered, it makes allowed calls only, and it ends as the condition
says. -/
def Conduct (post : α → Insight → Prop) : Program α → Insight → Prop
  | done a, k => post a k
  | call c next, k => c.Allowed k ∧ ∀ r, (next r).Conduct post (k.after c r)

/-- A program keeps the rules if its first part does, and the second does with what is known
then. -/
theorem conduct_bind {p : Program α} {f : α → Program β} {post : β → Insight → Prop} :
    (p.bind f).Conduct post k ↔ p.Conduct (fun a => (f a).Conduct post) k := by
  induction p generalizing k with
  | done a => rfl
  | call c next ih => simp only [bind, Conduct, ih]

namespace Conduct

theorem imp {post post' : α → Insight → Prop} {p : Program α} (h : p.Conduct post k)
    (hpost : ∀ a k, post a k → post' a k) : p.Conduct post' k := by
  induction p generalizing k with
  | done a => exact hpost a k h
  | call c next ih => exact ⟨h.1, fun r => ih r (h.2 r)⟩

theorem bind {p : Program α} {f : α → Program β} {mid : α → Insight → Prop}
    {post : β → Insight → Prop} (hp : p.Conduct mid k)
    (hf : ∀ a k, mid a k → (f a).Conduct post k) : (p.bind f).Conduct post k :=
  conduct_bind.mpr (hp.imp hf)

theorem call {c : Call} {next : c.Reply → Program α} {post : α → Insight → Prop}
    (hc : c.Allowed k) (hnext : ∀ r, (next r).Conduct post (k.after c r)) :
    (Program.call c next).Conduct post k := ⟨hc, hnext⟩

/-- Whoever is refused goes no further, so the rest need not be looked at with what is known
then. -/
theorem exceptT_bind {x : ExceptT ε Program α} {f : α → ExceptT ε Program β}
    {mid : Except ε α → Insight → Prop} {post : Except ε β → Insight → Prop}
    (hx : x.run.Conduct mid k) (herror : ∀ e k, mid (.error e) k → post (.error e) k)
    (hok : ∀ a k, mid (.ok a) k → (f a).run.Conduct post k) :
    (x >>= f).run.Conduct post k := by
  rw [bind_exceptT]
  refine hx.bind ?_
  rintro (e | a) k hk
  · exact herror e k hk
  · exact hok a k hk

theorem andThen {x : ExceptT ε Program α} {f : α → ExceptT ε Program β} {post : Insight → Prop}
    (hx : x.run.Conduct (fun _ => post) k)
    (hf : ∀ a k, post k → (f a).run.Conduct (fun _ => post) k) :
    (x >>= f).run.Conduct (fun _ => post) k :=
  exceptT_bind hx (fun _ _ hk => hk) hf

end Conduct

end Program

/-! ## What errands do -/

/-- The program holds the buyer's lock and has been given the basket.  This is what all work on
items goes on from. -/
structure Insight.OnBasket (k : Insight) (buyer : UserId) (order : OrderId) : Prop where
  buyer : k.buyer = some buyer
  basket : .basket order ∈ k.facts

/-- Nothing but placing an order makes a basket out of date. -/
theorem Insight.OnBasket.after {k : Insight} {buyer : UserId} {order : OrderId}
    (h : k.OnBasket buyer order) {c : StoreCall} (r : (Call.store c).Reply)
    (hc : (Fact.basket order).lasts (.store c) = true) :
    (k.after (.store c) r).OnBasket buyer order :=
  ⟨h.buyer, mem_after_of_lasts h.basket hc⟩

namespace Orders

variable {α : Type} {buyer : UserId} {k : Insight}

theorem conduct_ofExcept {post : Except Refusal α → Insight → Prop} (x : Except Refusal α)
    (hk : post x k) : (Service.ofExcept x).run.Conduct post k := by
  cases x <;> exact hk

theorem conduct_orRefuse {post : Except Refusal α → Insight → Prop} (r : Refusal) (x : Option α)
    (hk : post (x.elim (.error r) .ok) k) : (Service.orRefuse r x).run.Conduct post k := by
  cases x <;> exact hk

theorem conduct_store {c : StoreCall} {post : Except Refusal c.Result → Insight → Prop}
    (hc : (Call.store c).Allowed k)
    (hpost : ∀ r : (Call.store c).Reply,
      post (r.mapError StorageFault.refusal) (k.after (.store c) r)) :
    (Service.store c).run.Conduct post k := .call hc hpost

/-- Under the buyer's lock, what is done keeps it, and the lock is given back at the end. -/
theorem conduct_locked {x : Service α} (hk : k.buyer = none)
    (hx : ∀ k : Insight, k.buyer = some buyer →
      x.run.Conduct (fun _ k => k.buyer = some buyer) k) :
    (Service.locked buyer x).run.Conduct (fun _ k => k.buyer = none) k := by
  refine .call hk fun _ => ?_
  show (x.run.bind fun a => (Program.ask (.unlock buyer)).bind fun _ => .done a).Conduct _ _
  exact .bind (hx _ rfl) fun a k hk => .call hk fun _ => rfl

/-- Work on the basket begins with asking for it. -/
theorem conduct_onBasket {body : Order → Service α} (hk : k.buyer = some buyer)
    (hbody : ∀ (o : Order) (k : Insight), k.OnBasket buyer o.id →
      (body o).run.Conduct (fun _ k => k.OnBasket buyer o.id) k) :
    (Service.orders (.basket buyer) >>= body).run.Conduct (fun _ k => k.buyer = some buyer) k := by
  rw [Program.bind_exceptT]
  refine .call trivial ?_
  rintro (f | o)
  · exact hk
  · have hgiven : (k.after (.store (.orders (.basket buyer))) (.ok o)).OnBasket buyer o.id :=
      ⟨hk, Insight.mem_after.mpr (Or.inl (if_pos hk))⟩
    exact (hbody o _ hgiven).imp fun _ k hk => hk.buyer

theorem conduct_detail {post : Insight → Prop} (id : OrderId)
    (hk : ∀ r, post (k.after (.store (.orders (.detail id))) r)) :
    (detail id).run.Conduct (fun _ => post) k :=
  .andThen (conduct_store trivial hk) fun found _ hk => conduct_orRefuse _ found hk

theorem conduct_addItem {basket : OrderId} (hk : k.OnBasket buyer basket) (index : Nat)
    (input : AddInput) :
    (addItem basket index input).run.Conduct (fun _ k => k.OnBasket buyer basket) k := by
  refine .andThen (conduct_ofExcept _ hk) fun item k hk => ?_
  refine .call trivial ?_
  rintro (f | - | v)
  · exact hk.after _ rfl
  · exact hk.after _ rfl
  · simp only [Program.bind, ExceptT.bindCont, Except.mapError]
    split
    · exact hk.after _ rfl
    · refine .call (hk.after _ rfl).basket fun r => ?_
      exact conduct_ofExcept _ ((hk.after _ rfl).after _ rfl)

/-- Entries are added one by one, and none of them puts the basket out of date. -/
theorem conduct_addEach {basket : OrderId} (hk : k.OnBasket buyer basket) (index : Nat)
    (inputs : List AddInput) :
    (addEach basket index inputs).run.Conduct (fun _ k => k.OnBasket buyer basket) k := by
  induction inputs generalizing k index with
  | nil => exact hk
  | cons input inputs ih =>
    refine .andThen (conduct_addItem hk index input) fun item k hk => ?_
    exact .andThen (ih hk (index + 1)) fun items k hk => hk

theorem conduct_updateEach {basket : OrderId} (hk : k.OnBasket buyer basket)
    (updates : List (OrderItemId × Int)) :
    (updateEach basket updates).run.Conduct (fun _ k => k.OnBasket buyer basket) k := by
  induction updates generalizing k with
  | nil => exact hk
  | cons update updates ih =>
    obtain ⟨item, quantity⟩ := update
    refine .andThen (conduct_store hk.basket fun r => hk.after r rfl) fun changed k hk => ?_
    exact .andThen (ih hk) fun count k hk => hk

/-- An order that passes is the buyer's. -/
theorem conduct_requireBasket (order : OrderId) (hk : k.buyer = some buyer) :
    (requireBasket buyer order).run.Conduct (fun r k =>
      k.buyer = some buyer ∧ (r = .ok () → .order order ∈ k.facts)) k := by
  have hfound : (Service.orders (.order order)).run.Conduct (fun r k => k.buyer = some buyer ∧
      ∀ o, r = .ok (some o) → o.buyer = buyer → .order order ∈ k.facts) k := by
    refine conduct_store trivial ?_
    rintro (f | o)
    · exact ⟨hk, fun o ho => by cases ho⟩
    · refine ⟨hk, ?_⟩
      rintro o ho rfl
      cases ho
      exact Insight.mem_after.mpr (Or.inl (if_pos hk))
  refine .exceptT_bind hfound (fun _ _ hk => ⟨hk.1, nofun⟩) fun found k ⟨hk, hfact⟩ => ?_
  cases found with
  | none => exact ⟨hk, nofun⟩
  | some o =>
    simp only [Service.orRefuse, pure_bind]
    have howned : (Service.ofExcept (o.ensureOwnedBy buyer)).run.Conduct (fun r k =>
        k.buyer = some buyer ∧ (r = .ok () → .order order ∈ k.facts)) k := by
      refine conduct_ofExcept _ ⟨hk, fun hok => hfact o rfl ?_⟩
      unfold Order.ensureOwnedBy at hok
      split at hok
      · rename_i hbuyer
        exact beq_iff_eq.mp hbuyer
      · cases hok
    refine .exceptT_bind howned (fun _ _ hk => ⟨hk.1, nofun⟩) fun _ k ⟨hk, hfact⟩ => ?_
    have hstatus : (Service.ofExcept (o.status.become .new)).run.Conduct (fun _ k =>
        k.buyer = some buyer ∧ .order order ∈ k.facts) k :=
      conduct_ofExcept _ ⟨hk, hfact rfl⟩
    exact .exceptT_bind hstatus (fun _ _ hk => ⟨hk.1, nofun⟩) fun _ k hk => ⟨hk.1, fun _ => hk.2⟩

/-- A contact that passes is the buyer's. -/
theorem conduct_requireContact {order : OrderId} (contact : ContactId)
    (hk : k.buyer = some buyer) (horder : .order order ∈ k.facts) :
    (requireContact buyer contact).run.Conduct (fun r k => k.buyer = some buyer ∧
      (r = .ok () → .order order ∈ k.facts ∧ .contact contact ∈ k.facts)) k := by
  have hfound : (Service.contacts (.one buyer contact)).run.Conduct (fun r k =>
      k.buyer = some buyer ∧
        ∀ x, r = .ok (some x) → .order order ∈ k.facts ∧ .contact contact ∈ k.facts) k := by
    refine conduct_store trivial ?_
    rintro (f | - | x)
    · exact ⟨hk, nofun⟩
    · exact ⟨hk, nofun⟩
    · refine ⟨hk, fun _ _ => ⟨Insight.mem_after_of_lasts horder rfl, ?_⟩⟩
      exact Insight.mem_after.mpr (Or.inl (if_pos hk))
  refine .exceptT_bind hfound (fun _ _ hk => ⟨hk.1, nofun⟩) fun found k ⟨hk, hfact⟩ => ?_
  cases found with
  | none => exact ⟨hk, nofun⟩
  | some x => exact ⟨hk, fun _ => hfact x rfl⟩

/-- An order that passes has just been found to have items.  The next call may place it, and no
other call may come in between. -/
theorem conduct_requireItems {order : OrderId} {contact : ContactId}
    (hk : k.buyer = some buyer) (horder : .order order ∈ k.facts)
    (hcontact : .contact contact ∈ k.facts) :
    (requireItems order).run.Conduct (fun r k => k.buyer = some buyer ∧
      (r = .ok () → .order order ∈ k.facts ∧ .contact contact ∈ k.facts ∧
        .counted order ∈ k.facts)) k := by
  have hcount : (Service.orders (.itemCount order)).run.Conduct (fun r k =>
      k.buyer = some buyer ∧ ∀ n, r = .ok n → n ≠ (0 : Nat) → .order order ∈ k.facts ∧
        .contact contact ∈ k.facts ∧ .counted order ∈ k.facts) k := by
    refine conduct_store trivial ?_
    rintro (f | n)
    · exact ⟨hk, nofun⟩
    · refine ⟨hk, fun m hm hpositive => ⟨Insight.mem_after_of_lasts horder rfl,
        Insight.mem_after_of_lasts hcontact rfl, ?_⟩⟩
      cases hm
      exact Insight.mem_after.mpr (Or.inl (if_neg hpositive))
  refine .exceptT_bind hcount (fun _ _ hk => ⟨hk.1, nofun⟩) fun n k ⟨hk, hfact⟩ => ?_
  split
  · exact ⟨hk, nofun⟩
  · rename_i hpositive
    exact ⟨hk, fun _ => hfact n rfl hpositive⟩

theorem conduct_settle {order : OrderId} {contact : ContactId} (hk : k.buyer = some buyer)
    (hplace : (Call.store (.orders (.place order contact))).Allowed k) :
    (settle buyer order contact).run.Conduct (fun _ k => k.buyer = some buyer) k := by
  refine .andThen (conduct_store hplace fun _ => hk) fun placed k hk => ?_
  split
  · exact hk
  · refine .andThen (conduct_detail order fun _ => hk) fun found k hk => ?_
    refine .call trivial fun now => ?_
    refine .call trivial fun id => ?_
    refine .call (Insight.mem_after.mpr (Or.inl rfl)) fun r => ?_
    exact hk

/-- Each of the checks of a checkout finds out what placing the order needs, and the items are
counted last of all. -/
theorem conduct_checkout (order : OrderId) (contact : ContactId) (hk : k.buyer = none) :
    (checkout buyer order contact).run.Conduct (fun _ k => k.buyer = none) k := by
  rw [checkout_eq]
  refine conduct_locked hk fun k hk => ?_
  refine .exceptT_bind (conduct_requireBasket order hk) (fun _ _ hk => hk.1)
    fun _ k ⟨hk, hfact⟩ => ?_
  refine .exceptT_bind (conduct_requireContact contact hk (hfact rfl)) (fun _ _ hk => hk.1)
    fun _ k ⟨hk, hfacts⟩ => ?_
  obtain ⟨horder, hcontact⟩ := hfacts rfl
  refine .exceptT_bind (conduct_requireItems hk horder hcontact) (fun _ _ hk => hk.1)
    fun _ k ⟨hk, hfacts⟩ => ?_
  exact conduct_settle hk (hfacts rfl)

end Orders

/-- All errands keep the rules: those on items work on the basket, and a checkout has been told all
that it needs before it places. -/
theorem Errand.conduct (buyer : UserId) (e : Errand) {k : Insight} (hk : k.buyer = none) :
    (e.service buyer).run.Conduct (fun _ k => k.buyer = none) k := by
  cases e with
  | basket =>
    refine Orders.conduct_locked hk fun k hk => Orders.conduct_onBasket hk fun o k hk => ?_
    exact Orders.conduct_detail o.id fun r => hk.after r rfl
  | add inputs =>
    simp only [Errand.service, Orders.add]
    split
    · exact hk
    · refine Orders.conduct_locked hk fun k hk => Orders.conduct_onBasket hk fun o k hk => ?_
      exact Orders.conduct_addEach hk 0 inputs
  | update inputs =>
    refine Orders.conduct_locked hk fun k hk => Orders.conduct_onBasket hk fun o k hk => ?_
    exact Orders.conduct_updateEach hk _
  | remove ids =>
    refine Orders.conduct_locked hk fun k hk => Orders.conduct_onBasket hk fun o k hk => ?_
    split
    · exact hk
    · exact Orders.conduct_store hk.basket fun r => hk.after r rfl
  | checkout order contact => exact Orders.conduct_checkout order contact hk

/-- Programs that work on orders through errands alone keep the rules. -/
theorem Program.ThroughServices.conduct {α : Type} {p : Program α} (hp : p.ThroughServices)
    {k : Insight} (hk : k.buyer = none) : p.Conduct (fun _ k => k.buyer = none) k := by
  induction hp generalizing k with
  | done a => exact hk
  | @call c next hc _ ih =>
    refine .call (Call.allowed_of_open hc k) fun r => ih r ?_
    rw [← hk]
    exact Insight.buyerAfter_of_open hc k
  | errand buyer e _ ih => exact .bind (e.conduct buyer hk) fun r k hk => ih r hk
  | submit owner payload _ ih =>
    refine .call trivial fun now => ?_
    refine .call trivial fun id => ?_
    refine .call (Insight.mem_after.mpr (Or.inl rfl)) fun r => ?_
    exact ih r hk

end Marketplace
