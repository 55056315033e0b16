import Marketplace.Proofs.Isolation.View
import Marketplace.Proofs.Isolation.Writes
import Marketplace.Proofs.Order.Basket
set_option autoImplicit false

/-!
# A foreign object is not told from a missing one

What is answered to an account depends on the catalog and on what the account owns, and on nothing
else: each request that names an object by its identifier is first given its answer as a function of
these, and then compared in two worlds that differ in what others have
(`Pool.Reachable.answers_alike`).

The comparison never looks at two runs side by side.  A run is first replaced by its answer, and the
answer is a function of what `World.AgreeFor` keeps equal; so a service that came to read more would
fail here at its own lemma and not in the comparison.
-/

namespace Marketplace

open Program

variable {w : World} {u : UserId}

/-! ## Orders -/

namespace Orders

/-- The answer to a request for an order: its detail, if it is the account's.  There is one word for
an order of somebody else and for one that is not there, since both are no own order. -/
def getAnswer (s : Store) (u : UserId) (id : OrderId) : Except Refusal OrderDetail :=
  match s.book.ownOrder? u id with
  | none => .error (Order.absent id)
  | some o => .ok (s.book.detail (Store.line? s.catalog) o (s.book.itemsOf id))

/-- The service asks for the order first and for its owner then.  That it answers alike in both
cases is what makes the two steps one. -/
theorem run_get (hb : w.store.book.Lawful) (u : UserId) (id : OrderId) :
    (get u id).run.run World.handle w = some (getAnswer w.store u id, w) := by
  have hread : (Service.orders (.detail id)).run.run World.handle w =
      some (.ok (w.store.book.detail? (Store.line? w.store.catalog) id), w) := rfl
  unfold OrderBook.detail? at hread
  unfold get getAnswer OrderBook.ownOrder?
  cases ho : w.store.book.orders.get? id with
  | none =>
    have hdetail : (detail id).run.run World.handle w = some (.error (Order.absent id), w) := by
      rw [ho] at hread
      rw [detail, run_bind_of_ok hread]
      rfl
    rw [run_bind_of_error hdetail]
    rfl
  | some o =>
    let d := w.store.book.detail (Store.line? w.store.catalog) o (w.store.book.itemsOf id)
    have hdetail : (detail id).run.run World.handle w = some (.ok d, w) := by
      rw [ho] at hread
      rw [detail, run_bind_of_ok hread]
      rfl
    have hcheck : d.order.ensureOwnedBy u =
        if o.buyer = u then .ok () else .error (Order.absent id) := by
      have hid : d.order.id = id := (hb.orders id o ho).1
      simp only [Order.ensureOwnedBy, hid, beq_iff_eq]
      rfl
    rw [run_bind_of_ok hdetail, hcheck]
    by_cases hbuyer : o.buyer = u
    · rw [if_pos hbuyer, Option.filter_some, if_pos (beq_iff_eq.mpr hbuyer)]
      rfl
    · rw [if_neg hbuyer, Option.filter_some, if_neg (by simpa using hbuyer)]
      rfl

end Orders

/-! ## Items of the basket -/

namespace Orders

/-- Quantities are changed in the basket alone, so that items of others count as little as items
that are not there. -/
theorem run_update (hfree : u ∉ w.locked) (hb : w.store.book.Lawful)
    (hitems : w.store.book.items.All fun _ i => w.store.book.orders.contains i.order = true)
    (inputs : List UpdateInput) :
    ∃ v, (update u inputs).run.run World.handle w =
      some (.ok ((inputs.filterMap UpdateInput.wellFormed?).countP fun x =>
        (w.store.book.items.get? x.1).any (w.store.book.inBasket u)), v) :=
  ⟨_, run_update_eq hfree hb hitems inputs⟩

/-- Of the items named only those of the basket are taken away, and counted. -/
theorem run_remove (hfree : u ∉ w.locked) (hb : w.store.book.Lawful)
    (hitems : w.store.book.items.All fun _ i => w.store.book.orders.contains i.order = true)
    (ids : List OrderItemId) :
    ∃ v, (remove u ids).run.run World.handle w =
      some (.ok (w.store.book.items.filter fun k i =>
        w.store.book.inBasket u i && ids.contains k).size, v) :=
  ⟨_, run_remove_eq hfree hb hitems ids⟩

end Orders

/-! ## Checkouts -/

namespace Orders

variable {order : OrderId} {contact : ContactId}

/-- What a checkout requires of the order. -/
def checkOrder (b : OrderBook) (u : UserId) (order : OrderId) : Except Refusal Unit :=
  match b.ownOrder? u order with
  | none => .error (Order.absent order)
  | some o => (o.status.become .new).map fun _ => ()

/-- What a checkout requires of the contact. -/
def checkContact (b : OrderBook) (u : UserId) (contact : ContactId) : Except Refusal Unit :=
  if (b.contact? u contact).isNone then .error (.notFound s!"contact {contact}") else .ok ()

/-- What a checkout requires of the items. -/
def checkItems (b : OrderBook) (order : OrderId) : Except Refusal Unit :=
  if b.itemCount order = 0 then .error (.invalidArguments "basket is empty") else .ok ()

/-- What a checkout requires, in the sequence in which it asks for it: the order, the contact, the
items.  The first that is missing decides on the refusal, so the sequence is part of the answer. -/
def check (b : OrderBook) (u : UserId) (order : OrderId) (contact : ContactId) :
    Except Refusal Unit := do
  checkOrder b u order
  checkContact b u contact
  checkItems b order

/-- The refusal of a foreign order is that of one that is not there, and the status is looked at
only afterwards. -/
theorem run_checkOrder (hb : w.store.book.Lawful) (u : UserId) (order : OrderId) :
    (requireBasket u order).run.run World.handle w =
      some (checkOrder w.store.book u order, w) := by
  have hread : (Service.orders (.order order)).run.run World.handle w =
      some (.ok (w.store.book.orders.get? order), w) := rfl
  rw [requireBasket, run_bind_of_ok hread]
  unfold checkOrder OrderBook.ownOrder?
  cases ho : w.store.book.orders.get? order with
  | none => rfl
  | some o =>
    rw [Option.filter_some]
    simp only [Service.orRefuse, pure_bind]
    by_cases hbuyer : o.buyer = u
    · have howned : o.ensureOwnedBy u = .ok () := by simp [Order.ensureOwnedBy, hbuyer]
      simp only [howned, hbuyer, beq_self_eq_true, if_true]
      cases o.status.become .new <;> rfl
    · have hforeign : o.ensureOwnedBy u = .error (Order.absent order) := by
        simp [Order.ensureOwnedBy, hbuyer, (hb.orders order o ho).1]
      simp only [hforeign, beq_eq_false_iff_ne.mpr hbuyer, Bool.false_eq_true, if_false]
      rfl

/-- An order that passes is a basket of the account. -/
theorem exists_of_checkOrder {b : OrderBook} (h : checkOrder b u order = .ok ()) :
    ∃ o, b.ownOrder? u order = some o ∧ o.status = .basket := by
  unfold checkOrder at h
  cases ho : b.ownOrder? u order with
  | none =>
    rw [ho] at h
    cases h
  | some o =>
    rw [ho] at h
    simp only at h
    cases hstatus : o.status.become .new with
    | error f =>
      rw [hstatus] at h
      cases h
    | ok s => exact ⟨o, rfl, (OrderStatus.become_new_iff.mp hstatus).1⟩

theorem IsContactOf.user_eq {b : OrderBook} (h : IsContactOf b u contact) {x : Contact}
    (hx : b.contacts.get? contact = some x) : x.user = u := by
  obtain ⟨y, hy, huser⟩ := h
  rw [hx] at hy
  cases hy
  exact huser

theorem isContactOf_of_checkContact {b : OrderBook} (h : checkContact b u contact = .ok ()) :
    IsContactOf b u contact := by
  unfold checkContact at h
  split at h
  · cases h
  · rename_i hsome
    obtain ⟨x, hx⟩ := Option.ne_none_iff_exists'.mp (mt Option.isNone_iff_eq_none.mpr hsome)
    obtain ⟨hthere, huser⟩ := Option.filter_eq_some_iff.mp hx
    exact ⟨x, hthere, beq_iff_eq.mp huser⟩

theorem one_le_of_checkItems {b : OrderBook} (h : checkItems b order = .ok ()) :
    1 ≤ b.itemCount order := by
  unfold checkItems at h
  split at h
  · cases h
  · omega

/-- Who passes all checks is ready to check out, which is what the lemma on checkouts that go well
asks for. -/
theorem ready_of_check {b : OrderBook} (h : check b u order contact = .ok ()) :
    Ready b u order contact := by
  unfold check at h
  cases horder : checkOrder b u order with
  | error f =>
    rw [horder] at h
    cases h
  | ok _ =>
    rw [horder] at h
    cases hcontact : checkContact b u contact with
    | error f =>
      rw [hcontact] at h
      cases h
    | ok _ =>
      have hitems : checkItems b order = .ok () := by
        rw [hcontact] at h
        exact h
      obtain ⟨o, ho, hbasket⟩ := exists_of_checkOrder horder
      obtain ⟨hthere, hbuyer⟩ := OrderBook.ownOrder?_eq_some_iff.mp ho
      exact ⟨⟨o, hthere, hbuyer, hbasket⟩, isContactOf_of_checkContact hcontact,
        one_le_of_checkItems hitems⟩

theorem run_refuse_if (p : Prop) [Decidable p] (r : Refusal) (w : World) :
    (if p then Service.refuse r else pure () : Service Unit).run.run World.handle w =
      some (if p then .error r else .ok (), w) := by
  split <;> rfl

theorem run_checkContact (w : World) (u : UserId) (contact : ContactId) :
    (requireContact u contact).run.run World.handle w =
      some (checkContact w.store.book u contact, w) := by
  rw [requireContact, run_bind_of_ok (run_contacts w (.one u contact))]
  exact run_refuse_if _ _ w

theorem run_checkItems (w : World) (order : OrderId) :
    (requireItems order).run.run World.handle w =
      some (checkItems w.store.book order, w) := by
  have hcount : (Service.orders (.itemCount order)).run.run World.handle w =
      some (.ok (w.store.book.itemCount order), w) := rfl
  rw [requireItems, run_bind_of_ok hcount]
  exact run_refuse_if _ _ w

/-- A checkout whose checks fail is refused with the refusal of the first one that does.  The lock
is taken and given back, so that the world is as it was. -/
theorem run_checkout_refused (hfree : u ∉ w.locked) (hb : w.store.book.Lawful) {f : Refusal}
    (h : check w.store.book u order contact = .error f) :
    (checkout u order contact).run.run World.handle w = some (.error f, w) := by
  let v : World := { w with locked := u :: w.locked }
  have horder : (requireBasket u order).run.run World.handle v =
      some (checkOrder w.store.book u order, v) := run_checkOrder (w := v) hb u order
  have hcontact : (requireContact u contact).run.run World.handle v =
      some (checkContact w.store.book u contact, v) := run_checkContact v u contact
  have hitems : (requireItems order).run.run World.handle v =
      some (checkItems w.store.book order, v) := run_checkItems v order
  rw [checkout_eq]
  refine run_locked hfree w ?_
  unfold check at h
  cases hcheck : checkOrder w.store.book u order with
  | error g =>
    rw [hcheck] at h horder
    cases h
    exact run_bind_of_error horder
  | ok _ =>
    rw [hcheck] at h horder
    rw [run_bind_of_ok horder]
    cases hcheck : checkContact w.store.book u contact with
    | error g =>
      rw [hcheck] at h hcontact
      cases h
      exact run_bind_of_error hcontact
    | ok _ =>
      rw [hcheck] at h hcontact
      rw [run_bind_of_ok hcontact]
      have hlast : checkItems w.store.book order = .error f := h
      rw [hlast] at hitems
      exact run_bind_of_error hitems

end Orders

/-! ## Jobs -/

namespace JobService

/-- The answer to a request for a job: the job, if it is the account's.  Jobs of others are in the
store too, but are not found. -/
def statusAnswer (s : JobStore) (u : UserId) (id : JobId) : Except Refusal Job :=
  match s.ownJob? u id with
  | none => .error (JobFault.notFound id).refusal
  | some j => .ok j

/-- The answer to a request to put a job back.  Whether it has failed is looked at only when it is
known to be the account's. -/
def retryAnswer (s : JobStore) (now : Instant) (u : UserId) (id : JobId) : Except Refusal Job :=
  match s.ownJob? u id with
  | none => .error (JobFault.notFound id).refusal
  | some j =>
    if j.status.isFailed then .ok (j.requeue now) else .error (JobFault.notFailed id).refusal

theorem run_status (w : World) (u : UserId) (id : JobId) :
    (status u id).toService.run.run World.handle w = some (statusAnswer w.jobs u id, w) := by
  unfold statusAnswer JobStore.ownJob?
  simp only [toService, status, ExceptT.run_mk, ask, Program.bind, Program.run, World.handle,
    JobCall.step, JobStore.get]
  cases w.jobs.find? id with
  | none => rfl
  | some j =>
    rw [Option.filter_some]
    by_cases howner : j.owner = u
    · simp only [howner, beq_self_eq_true, if_true]
      rfl
    · have hforeign : (j.owner == u) = false := beq_eq_false_iff_ne.mpr howner
      simp only [hforeign, Bool.false_eq_true, if_false]
      rfl

/-- What is written when a job is put back is of no concern here, only what is answered. -/
theorem run_retry (w : World) (u : UserId) (id : JobId) :
    ∃ v, (retry u id).toService.run.run World.handle w =
      some (retryAnswer w.jobs w.clock u id, v) := by
  unfold retryAnswer JobStore.ownJob?
  simp only [toService, retry, ExceptT.run_mk, ask, Program.bind, Program.run, World.handle,
    JobCall.step, JobStore.retryFailed]
  cases w.jobs.find? id with
  | none => exact ⟨_, rfl⟩
  | some j =>
    rw [Option.filter_some]
    by_cases howner : j.owner = u
    · simp only [howner, bne_self_eq_false, beq_self_eq_true, Bool.false_eq_true, if_true, if_false]
      cases j.status.isFailed <;> exact ⟨_, rfl⟩
    · have hforeign : (j.owner == u) = false := beq_eq_false_iff_ne.mpr howner
      simp only [bne, hforeign, Bool.not_false, Bool.false_eq_true, if_true, if_false]
      exact ⟨_, rfl⟩

end JobService

/-! ## Requests -/

/-- What an account asks for by identifiers, which may be those of anybody's objects. -/
inductive Request
  | order (id : OrderId)
  | checkout (order : OrderId) (contact : ContactId)
  | update (inputs : List UpdateInput)
  | remove (ids : List OrderItemId)
  | updateContact (id : ContactId) (patch : AddressInput)
  | deleteContacts (ids : List ContactId)
  | job (id : JobId)
  | retry (id : JobId)

namespace Request

/-- What the request brings. -/
abbrev Result : Request → Type
  | .order _ => OrderDetail
  | .checkout _ _ => CheckoutOutcome
  | .update _ | .remove _ | .deleteContacts _ => Nat
  | .updateContact _ _ => Contact
  | .job _ | .retry _ => Job

/-- The service that grants the request to an account. -/
def service (u : UserId) : (q : Request) → Service q.Result
  | .order id => Orders.get u id
  | .checkout id contact => Orders.checkout u id contact
  | .update inputs => Orders.update u inputs
  | .remove ids => Orders.remove u ids
  | .updateContact id patch => Contacts.update u id patch
  | .deleteContacts ids => Contacts.delete u ids
  | .job id => (JobService.status u id).toService
  | .retry id => (JobService.retry u id).toService

/-- The results are the same but for identifiers and times that are new in them.  A checkout has a
new job if new identifiers can be told from old ones: the job's identifier is new, so that of the
notification only whether there is one can be compared. -/
def Alike (distinct : Prop) : (q : Request) → q.Result → q.Result → Prop
  | .checkout _ _, out, out' => out'.order = out.order ∧
      (distinct → out'.notification.isSome = out.notification.isSome)
  | .retry _, j, j' => j' = { j with updatedAt := j'.updatedAt }
  | .order _, d, d' => d' = d
  | .update _, n, n' | .remove _, n, n' | .deleteContacts _, n, n' => n' = n
  | .updateContact _ _, x, x' => x' = x
  | .job _, j, j' => j' = j

/-- Both answers refuse the request in the same words, or both grant it with results that are alike.
That one refuses and the other grants is excluded as well, for it would tell the two worlds
apart. -/
def AnswersAlike (distinct : Prop) (q : Request) :
    Except Refusal q.Result → Except Refusal q.Result → Prop
  | .ok a, .ok a' => q.Alike distinct a a'
  | .error f, .error f' => f' = f
  | _, _ => False

theorem AnswersAlike.refl {distinct : Prop} {q : Request} (r : Except Refusal q.Result)
    (hq : ∀ a, q.Alike distinct a a) : q.AnswersAlike distinct r r := by
  cases r with
  | error f => rfl
  | ok a => exact hq a

end Request

namespace World.AgreeFor

variable {w w' : World} {u : UserId}

theorem inBasket_eq (h : w.AgreeFor u w') (hb : w.store.book.Lawful)
    (hb' : w'.store.book.Lawful) : w'.store.book.inBasket u = w.store.book.inBasket u := by
  funext i
  rw [OrderBook.inBasket, OrderBook.inBasket, h.basket?_eq hb hb']

theorem owns_of_inBasket (hb : w.store.book.Lawful) {i : OrderItem}
    (hi : w.store.book.inBasket u i = true) : w.store.book.Owns u i.order := by
  obtain ⟨o, ho, horder⟩ := (Option.any_eq_true _ _).mp hi
  obtain ⟨hthere, hbuyer, -⟩ := OrderBook.basket?_eq_some hb ho
  rw [beq_iff_eq.mp horder]
  exact ⟨o, hthere, hbuyer⟩

/-- The basket holds the same items.  It is owned, and all that is owned is the same in both
worlds. -/
theorem basketHolds_eq (h : w.AgreeFor u w') (hb : w.store.book.Lawful)
    (hb' : w'.store.book.Lawful) (k : OrderItemId) :
    (w'.store.book.items.get? k).any (w'.store.book.inBasket u) =
      (w.store.book.items.get? k).any (w.store.book.inBasket u) := by
  have hsame := h.items.filter_get? (fun _ hi => owns_of_inBasket hb hi) k
  rw [h.inBasket_eq hb hb', ← Option.isSome_filter, ← Option.isSome_filter, hsame]

/-- Of those named it holds equally many. -/
theorem basketSize_eq (h : w.AgreeFor u w') (hb : w.store.book.Lawful)
    (hb' : w'.store.book.Lawful) (ids : List OrderItemId) :
    (w'.store.book.items.filter fun k i => w'.store.book.inBasket u i && ids.contains k).size =
      (w.store.book.items.filter fun k i => w.store.book.inBasket u i && ids.contains k).size := by
  rw [h.inBasket_eq hb hb']
  exact h.items.size_filter fun _ _ htest =>
    owns_of_inBasket hb (Bool.and_eq_true_iff.mp htest).1

theorem checkOrder_eq (h : w.AgreeFor u w') (order : OrderId) :
    Orders.checkOrder w'.store.book u order = Orders.checkOrder w.store.book u order := by
  rw [Orders.checkOrder, Orders.checkOrder, h.ownOrder?_eq]

theorem checkContact_eq (h : w.AgreeFor u w') (contact : ContactId) :
    Orders.checkContact w'.store.book u contact = Orders.checkContact w.store.book u contact := by
  rw [Orders.checkContact, Orders.checkContact, h.contact?_eq]

/-- All three checks look at what is owned, and the number of items is that of an owned order; a
foreign one has failed before. -/
theorem check_eq (h : w.AgreeFor u w') (hi : w.store.book.items.Ascending)
    (hi' : w'.store.book.items.Ascending) (order : OrderId) (contact : ContactId) :
    Orders.check w'.store.book u order contact = Orders.check w.store.book u order contact := by
  unfold Orders.check
  rw [h.checkOrder_eq, h.checkContact_eq]
  cases hcheck : Orders.checkOrder w.store.book u order with
  | error f => rfl
  | ok _ =>
    -- The items count only once the order is known to be the account's.
    obtain ⟨o, ho, -⟩ := Orders.exists_of_checkOrder hcheck
    have hitems : Orders.checkItems w'.store.book order = Orders.checkItems w.store.book order := by
      rw [Orders.checkItems, Orders.checkItems, OrderBook.itemCount, OrderBook.itemCount,
        h.itemsOf_eq hi hi' (.of_ownOrder? ho)]
    rw [hitems]

end World.AgreeFor

namespace Pool

variable {P Q : Pool} {u : UserId}

/-- The detail of an own order has lines of the catalog, which is the same, and items that are
owned. -/
theorem Reachable.getAnswer_eq (hP : P.Reachable Program.ThroughServices)
    (hQ : Q.Reachable Program.ThroughServices) (h : P.world.AgreeFor u Q.world) (id : OrderId) :
    Orders.getAnswer Q.world.store u id = Orders.getAnswer P.world.store u id := by
  unfold Orders.getAnswer
  rw [h.ownOrder?_eq]
  cases ho : P.world.store.book.ownOrder? u id with
  | none => rfl
  | some o =>
    obtain ⟨hthere, rfl⟩ := OrderBook.ownOrder?_eq_some_iff.mp ho
    have hthere' := (h.orders id o rfl).mpr hthere
    refine congrArg Except.ok (h.detail_eq hP.items_ascending hQ.items_ascending ⟨o, hthere, rfl⟩ o
      ?_ ?_)
    · exact fun contact x hcontact hx => hP.contact_of_order hthere hcontact hx
    · exact fun contact x hcontact hx => hQ.contact_of_order hthere' hcontact hx

/-- A job is submitted, as long as new identifiers can be told from old ones.  Its identifier is
then none of the store's, which is all that a submission asks for. -/
theorem Reachable.isSome_submission (h : P.Reachable Program.ThroughServices)
    (hissued : P.world.issued + 1 < 2 ^ 74) (u : UserId) (order : OrderId) :
    (Orders.submission P.world u order).1.toOption.isSome = true := by
  rw [h.submission_eq hissued]
  rfl

/-- Two checkouts that are in order show the same order. -/
theorem Reachable.placedDetail_eq (hP : P.Reachable Program.ThroughServices)
    (hQ : Q.Reachable Program.ThroughServices) (h : P.world.AgreeFor u Q.world) {order : OrderId}
    {contact : ContactId} {o : Order} (howns : P.world.store.book.Owns u order)
    (hcontact : Orders.IsContactOf P.world.store.book u contact)
    (hcontact' : Orders.IsContactOf Q.world.store.book u contact) :
    Orders.placedDetail Q.world order contact o = Orders.placedDetail P.world order contact o := by
  refine h.detail_eq hP.items_ascending hQ.items_ascending howns (o.placed contact) ?_ ?_
  · rintro id x ⟨⟩ hx
    exact hcontact.user_eq hx
  · rintro id x ⟨⟩ hx
    exact hcontact'.user_eq hx

/-- A checkout passes all its checks in both states or fails the same one, and then shows the same.
The two cases are those of the checks, which are equal in both states, so they are split once. -/
theorem Reachable.checkouts_alike (hP : P.Reachable Program.ThroughServices)
    (hQ : Q.Reachable Program.ThroughServices) (h : P.world.AgreeFor u Q.world)
    (hfree : u ∉ P.world.locked) (hfree' : u ∉ Q.world.locked) (id : OrderId)
    (contact : ContactId) :
    ∃ r r' w w', (Orders.checkout u id contact).run.run World.handle P.world = some (r, w) ∧
      (Orders.checkout u id contact).run.run World.handle Q.world = some (r', w') ∧
        (Request.checkout id contact).AnswersAlike
          (P.world.issued + 1 < 2 ^ 74 ∧ Q.world.issued + 1 < 2 ^ 74) r r' := by
  have hcheck := h.check_eq hP.items_ascending hQ.items_ascending id contact
  cases hready : Orders.check P.world.store.book u id contact with
  | error f =>
    rw [hready] at hcheck
    exact ⟨_, _, _, _, Orders.run_checkout_refused hfree hP.lawful hready,
      Orders.run_checkout_refused hfree' hQ.lawful hcheck, rfl⟩
  | ok _ =>
    rw [hready] at hcheck
    have hthis := Orders.ready_of_check hready
    have hthat := Orders.ready_of_check hcheck
    obtain ⟨o, ho, hbuyer, hbasket⟩ := hthis.basket
    have ho' := (h.orders id o hbuyer).mpr ho
    refine ⟨_, _, _, _, Orders.run_checkout hfree ho hthis,
      Orders.run_checkout hfree' ho' hthat, ?_, ?_⟩
    · exact hP.placedDetail_eq hQ h ⟨o, ho, hbuyer⟩ hthis.contact hthat.contact
    · rintro ⟨hissued, hissued'⟩
      exact (hQ.isSome_submission hissued' u id).trans (hP.isSome_submission hissued u id).symm

/-- A job that is put back is the same in both states, but for the time, which is that of the
clock. -/
theorem Reachable.retries_alike {distinct : Prop} (hP : P.Reachable Program.ThroughServices)
    (hQ : Q.Reachable Program.ThroughServices) (h : P.world.AgreeFor u Q.world) (id : JobId) :
    (Request.retry id).AnswersAlike distinct
      (JobService.retryAnswer P.world.jobs P.world.clock u id)
      (JobService.retryAnswer Q.world.jobs Q.world.clock u id) := by
  unfold JobService.retryAnswer
  rw [h.ownJob?_eq hP.distinct_jobs hQ.distinct_jobs]
  cases P.world.jobs.ownJob? u id with
  | none => rfl
  | some j =>
    simp only
    split
    · exact rfl
    · rfl

/-- A foreign object is not told from a missing one: in two reachable states that agree on the
catalog and on all that belongs to an account, whatever others have in them, each request of the
account is answered, and is answered alike. -/
theorem Reachable.answers_alike (hP : P.Reachable Program.ThroughServices)
    (hQ : Q.Reachable Program.ThroughServices) (h : P.world.AgreeFor u Q.world)
    (hfree : u ∉ P.world.locked) (hfree' : u ∉ Q.world.locked) (q : Request) :
    ∃ r r' w w', (q.service u).run.run World.handle P.world = some (r, w) ∧
      (q.service u).run.run World.handle Q.world = some (r', w') ∧
        q.AnswersAlike (P.world.issued + 1 < 2 ^ 74 ∧ Q.world.issued + 1 < 2 ^ 74) r r' := by
  have hb := hP.lawful
  have hb' := hQ.lawful
  have hitems := hP.items_ordered
  have hitems' := hQ.items_ordered
  cases q with
  | order id =>
    refine ⟨_, _, _, _, Orders.run_get hb u id, Orders.run_get hb' u id, ?_⟩
    rw [hP.getAnswer_eq hQ h]
    exact .refl _ fun d => rfl
  | checkout id contact => exact hP.checkouts_alike hQ h hfree hfree' id contact
  | update inputs =>
    obtain ⟨w, hrun⟩ := Orders.run_update hfree hb hitems inputs
    obtain ⟨w', hrun'⟩ := Orders.run_update hfree' hb' hitems' inputs
    refine ⟨_, _, _, _, hrun, hrun', ?_⟩
    exact congrArg (List.countP · _) (funext fun x => h.basketHolds_eq hb hb' x.1)
  | remove ids =>
    obtain ⟨w, hrun⟩ := Orders.run_remove hfree hb hitems ids
    obtain ⟨w', hrun'⟩ := Orders.run_remove hfree' hb' hitems' ids
    refine ⟨_, _, _, _, hrun, hrun', ?_⟩
    rw [h.basketSize_eq hb hb']
    exact .refl _ fun n => rfl
  | updateContact id patch =>
    obtain ⟨b, hrun, -⟩ := Contacts.run_update P.world u id patch
    obtain ⟨b', hrun', -⟩ := Contacts.run_update Q.world u id patch
    refine ⟨_, _, _, _, hrun, hrun', ?_⟩
    rw [h.contact?_eq]
    exact .refl _ fun x => rfl
  | deleteContacts ids =>
    obtain ⟨b, hrun, -⟩ := Contacts.run_delete P.world u ids
    obtain ⟨b', hrun', -⟩ := Contacts.run_delete Q.world u ids
    refine ⟨_, _, _, _, hrun, hrun', ?_⟩
    rw [h.ownContacts_size]
    exact .refl _ fun n => rfl
  | job id =>
    refine ⟨_, _, _, _, JobService.run_status P.world u id, JobService.run_status Q.world u id, ?_⟩
    unfold JobService.statusAnswer
    rw [h.ownJob?_eq hP.distinct_jobs hQ.distinct_jobs]
    exact .refl _ fun j => rfl
  | retry id =>
    obtain ⟨w, hrun⟩ := JobService.run_retry P.world u id
    obtain ⟨w', hrun'⟩ := JobService.run_retry Q.world u id
    exact ⟨_, _, _, _, hrun, hrun', hP.retries_alike hQ h id⟩

/-- The purchase of `laterBuyer` before and after another buyer has got a basket: in neither case
can the first buyer check out that basket, and is told the same. -/
theorem Reachable.answers_alike_of_laterBuyer : ∃ P Q : Pool,
    P.Reachable Program.ThroughServices ∧ Q.Reachable Program.ThroughServices ∧
      P.world.AgreeFor ⟨7⟩ Q.world ∧ ⟨7⟩ ∉ P.world.locked ∧ ⟨7⟩ ∉ Q.world.locked ∧
      P.world.store.book.orders.get? ⟨2⟩ = none ∧ Q.world.store.book.Foreign ⟨7⟩ ⟨2⟩ ∧
      ∃ w w', (Orders.checkout ⟨7⟩ ⟨2⟩ ⟨1⟩).run.run World.handle P.world =
          some (.error (Order.absent ⟨2⟩), w) ∧
        (Orders.checkout ⟨7⟩ ⟨2⟩ ⟨1⟩).run.run World.handle Q.world =
          some (.error (Order.absent ⟨2⟩), w') := by
  have hadmitted : ∀ p ∈ laterBuyer, p.ThroughServices :=
    List.forall_mem_append.mpr ⟨throughServices_phoneOrder, List.forall_mem_singleton.mpr
      (.errand ⟨8⟩ (.add [⟨some (.int 1), some (.int 2)⟩]) fun _ => .done ())⟩
  have hplay : (Pool.play basketSteps ⟨.start ⟨0, 0⟩ 3, laterBuyer.map .start⟩).any (fun P =>
      (Pool.play (List.replicate 5 4) P).any fun Q =>
        P.world.jobs.jobs.isEmpty && Q.world.jobs.jobs.isEmpty && decide (
          P.world.store.catalog = Q.world.store.catalog ∧
          P.world.store.book.orders.values = [⟨⟨1⟩, ⟨7⟩, .basket, ⟨0, 0⟩, none⟩] ∧
          Q.world.store.book.orders.get? ⟨2⟩ = some ⟨⟨2⟩, ⟨8⟩, .basket, ⟨0, 0⟩, none⟩ ∧
          (P.world.store.book.orders.filter fun _ o => o.buyer == ⟨7⟩) =
            Q.world.store.book.orders.filter (fun _ o => o.buyer == ⟨7⟩) ∧
          (P.world.store.book.items.filter fun _ i => i.order == ⟨1⟩) =
            Q.world.store.book.items.filter (fun _ i => i.order == ⟨1⟩) ∧
          P.world.store.book.contacts = Q.world.store.book.contacts ∧
          P.world.locked = [] ∧ Q.world.locked = [])) = true := by
    decide +kernel
  obtain ⟨P, hP, hplay⟩ := (Option.any_eq_true _ _).mp hplay
  obtain ⟨Q, hQ, hfacts⟩ := (Option.any_eq_true _ _).mp hplay
  simp only [Bool.and_eq_true, List.isEmpty_iff, decide_eq_true_eq] at hfacts
  obtain ⟨⟨hjobs, hjobs'⟩, hcatalog, hvalues, hlater, horders, hitems, hcontacts, hlocked,
    hlocked'⟩ :=
    hfacts
  have hreach := (Reachable.begin ⟨0, 0⟩ 3 hadmitted).play hP
  have hreach' := hreach.play hQ
  have hfree : ⟨7⟩ ∉ P.world.locked := by simp [hlocked]
  have hfree' : ⟨7⟩ ∉ Q.world.locked := by simp [hlocked']
  have honly : ∀ id o, P.world.store.book.orders.get? id = some o → id = ⟨1⟩ := by
    intro id o ho
    have hmem : o ∈ P.world.store.book.orders.values := Table.mem_values_iff.mpr ⟨id, ho⟩
    rw [hvalues, List.mem_singleton] at hmem
    rw [← (hreach.lawful.orders id o ho).1, hmem]
  have hmissing : P.world.store.book.orders.get? ⟨2⟩ = none := by
    refine Option.eq_none_iff_forall_ne_some.mpr fun o ho => ?_
    cases honly ⟨2⟩ o ho
  have hagree : P.world.AgreeFor ⟨7⟩ Q.world := by
    refine ⟨?_, ?_, ?_, ?_, ?_, ?_, ?_⟩
    · rw [hcatalog]
      exact .refl _ _
    · rw [hcatalog]
      exact .refl _ _
    · rw [hcatalog]
      exact .refl _ _
    · exact .of_filter_eq horders fun _ o hbuyer => beq_iff_eq.mpr hbuyer
    · refine .of_filter_eq hitems fun _ i howns => beq_iff_eq.mpr ?_
      obtain ⟨o, ho, -⟩ := howns
      exact honly i.order o ho
    · rw [hcontacts]
      exact .refl _ _
    · intro j _
      rw [hjobs, hjobs']
  have hcheck : Orders.check P.world.store.book ⟨7⟩ ⟨2⟩ ⟨1⟩ = .error (Order.absent ⟨2⟩) := by
    rw [Orders.check, Orders.checkOrder, OrderBook.ownOrder?, hmissing]
    rfl
  have hrefused := Orders.run_checkout_refused hfree hreach.lawful hcheck
  obtain ⟨r, r', w, w', hrun, hrun', halike⟩ :=
    hreach.answers_alike hreach' hagree hfree hfree' (.checkout ⟨2⟩ ⟨1⟩)
  cases hrefused.symm.trans hrun
  cases r' with
  | ok _ => exact halike.elim
  | error f =>
    cases halike
    exact ⟨P, Q, hreach, hreach', hagree, hfree, hfree', hmissing, ⟨_, hlater, by decide⟩, _, w',
      hrun, hrun'⟩

end Pool

end Marketplace
