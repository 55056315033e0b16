import Marketplace.Proofs.Job.Identifiers
import Marketplace.Proofs.Order.Lifecycle
set_option autoImplicit false

/-!
# Checkouts that run alone

Run alone, a checkout places the order if it is the buyer's basket, has items, and is to go to one
of the buyer's contacts, and then it does nothing else but submit one job; otherwise it does nothing
at all.

The run of a checkout is put together from the runs of its parts, each of which either passes or
refuses and changes nothing before the order is placed.  What it means among others is then said in
the last section, where reachable pools give what the single run has to assume.
-/

namespace Marketplace

open Program

/-! ## The parts of a checkout, run alone -/

namespace Orders

variable {α : Type} {w w' : World} {buyer : UserId} {order : OrderId} {contact : ContactId}

/-- The order is the buyer's basket. -/
def IsBasketOf (b : OrderBook) (buyer : UserId) (order : OrderId) : Prop :=
  ∃ o, b.orders.get? order = some o ∧ o.buyer = buyer ∧ o.status = .basket

/-- The contact is the buyer's. -/
def IsContactOf (b : OrderBook) (buyer : UserId) (contact : ContactId) : Prop :=
  ∃ x, b.contacts.get? contact = some x ∧ x.user = buyer

/-- A call of orders is answered by the store as it is; what is refused is told in the service's
words. -/
theorem run_orders (w : World) (c : OrderCall) :
    (Service.orders c).run.run World.handle w =
      some ((c.step w.store w.clock).1.mapError StorageFault.refusal,
        { w with store := (c.step w.store w.clock).2 }) := rfl

theorem run_contacts (w : World) (c : ContactCall) :
    (Service.contacts c).run.run World.handle w =
      some (.ok (c.step w.store).1, { w with store := (c.step w.store).2 }) := rfl

/-- An order passes if it is the buyer's and a basket; it is looked up and looked at in two
steps. -/
theorem run_requireBasket (h : IsBasketOf w.store.book buyer order) :
    (requireBasket buyer order).run.run World.handle w = some (.ok (), w) := by
  obtain ⟨o, ho, rfl, hbasket⟩ := h
  have hfound :
      (Service.orders (.order order)).run.run World.handle w = some (.ok (some o), w) := by
    rw [run_orders]
    simp only [OrderCall.step, ho]
    rfl
  have howned : o.ensureOwnedBy o.buyer = .ok () := by simp [Order.ensureOwnedBy]
  have hstatus : o.status.become .new = .ok .new :=
    OrderStatus.become_new_iff.mpr ⟨hbasket, rfl⟩
  rw [requireBasket, run_bind_of_ok hfound]
  simp only [Service.orRefuse, pure_bind, howned, hstatus, Service.ofExcept]
  rfl

/-- Of an order that is there, a foreign one is told like a missing one, and the buyer's own has
been placed already. -/
theorem run_requireBasket_error (h : ¬IsBasketOf w.store.book buyer order) :
    ∃ f, (requireBasket buyer order).run.run World.handle w = some (.error f, w) ∧
      ∀ o, w.store.book.orders.get? order = some o →
        f.kind = if o.buyer = buyer then .invalidTransition else .notFound := by
  have hfound : (Service.orders (.order order)).run.run World.handle w =
      some (.ok (w.store.book.orders.get? order), w) := rfl
  rw [requireBasket, run_bind_of_ok hfound]
  cases ho : w.store.book.orders.get? order with
  | none => exact ⟨_, rfl, fun o hnone => by cases hnone⟩
  | some o =>
    simp only [Service.orRefuse, pure_bind]
    by_cases hbuyer : o.buyer = buyer
    · have hstatus : o.status ≠ .basket := fun hbasket => h ⟨o, ho, hbuyer, hbasket⟩
      obtain ⟨detail, hdetail⟩ := OrderStatus.become_new_error hstatus
      have howned : o.ensureOwnedBy buyer = .ok () := by simp [Order.ensureOwnedBy, hbuyer]
      refine ⟨.invalidTransition detail, ?_, ?_⟩
      · simp only [howned, hdetail, Service.ofExcept, pure_bind]
        rfl
      · rintro _ ⟨⟩
        rw [if_pos hbuyer]
        rfl
    · have hforeign : o.ensureOwnedBy buyer = .error (Order.absent o.id) := by
        simp [Order.ensureOwnedBy, hbuyer]
      refine ⟨Order.absent o.id, ?_, ?_⟩
      · simp only [hforeign, Service.ofExcept]
        rfl
      · rintro _ ⟨⟩
        rw [if_neg hbuyer]
        rfl

/-- A contact passes if it is the buyer's: that of somebody else is not found. -/
theorem run_requireContact (h : IsContactOf w.store.book buyer contact) :
    (requireContact buyer contact).run.run World.handle w = some (.ok (), w) := by
  obtain ⟨x, hx, huser⟩ := h
  have hfound : (Service.contacts (.one buyer contact)).run.run World.handle w =
      some (.ok (some x), w) := by
    rw [run_contacts]
    simp only [ContactCall.step, OrderBook.contact?, hx, Option.filter_some, huser,
      beq_self_eq_true, if_true]
  rw [requireContact, run_bind_of_ok hfound]
  rfl

theorem run_requireContact_error (h : ¬IsContactOf w.store.book buyer contact) :
    ∃ f, (requireContact buyer contact).run.run World.handle w = some (.error f, w) := by
  have hnone : w.store.book.contact? buyer contact = none := by
    rw [OrderBook.contact?, Option.filter_eq_none_iff]
    intro x hx huser
    exact h ⟨x, hx, beq_iff_eq.mp huser⟩
  have hfound : (Service.contacts (.one buyer contact)).run.run World.handle w =
      some (.ok none, w) := by
    rw [run_contacts]
    simp only [ContactCall.step, hnone]
  rw [requireContact, run_bind_of_ok hfound]
  exact ⟨_, rfl⟩

theorem run_requireItems (h : 1 ≤ w.store.book.itemCount order) :
    (requireItems order).run.run World.handle w = some (.ok (), w) := by
  have hcount : (Service.orders (.itemCount order)).run.run World.handle w =
      some (.ok (w.store.book.itemCount order), w) := rfl
  rw [requireItems, run_bind_of_ok hcount, if_neg (Nat.one_le_iff_ne_zero.mp h)]
  rfl

theorem run_requireItems_error (h : ¬1 ≤ w.store.book.itemCount order) :
    ∃ f, (requireItems order).run.run World.handle w = some (.error f, w) := by
  have hcount : (Service.orders (.itemCount order)).run.run World.handle w =
      some (.ok (w.store.book.itemCount order), w) := rfl
  have hzero : w.store.book.itemCount order = 0 := by omega
  rw [requireItems, run_bind_of_ok hcount, if_pos hzero]
  exact ⟨_, rfl⟩

/-- The job that tells people of an order that is placed now.  Its identifier is the next one that
is given, and it is tried as often as such jobs are. -/
def notification (w : World) (buyer : UserId) (order : OrderId) : Job :=
  { Job.new (.ofClock w.millis (w.issued + 1)) w.clock buyer (.notifyOrderPlaced buyer order) with
    policy := { RetryPolicy.usual with maxAttempts := notifyAttempts } }

/-- The world in which the order has been placed, but nobody has been told.  The job comes after it,
so that an order is never told of that is not placed. -/
def placedIn (w : World) (order : OrderId) (contact : ContactId) (o : Order) : World :=
  { w with store := { w.store with book := { w.store.book with
      orders := w.store.book.orders.insert order (o.placed contact) } } }

/-- What the buyer is shown of the order then. -/
def placedDetail (w : World) (order : OrderId) (contact : ContactId) (o : Order) : OrderDetail :=
  (placedIn w order contact o).store.book.detail (Store.line? w.store.catalog) (o.placed contact)
    (w.store.book.itemsOf order)

theorem get?_placedIn (w : World) (order : OrderId) (contact : ContactId) (o : Order) :
    (placedIn w order contact o).store.book.orders.get? order = some (o.placed contact) := by
  simp only [placedIn, Table.get?_insert, if_pos]

theorem detail?_placedIn (w : World) (order : OrderId) (contact : ContactId) (o : Order) :
    (placedIn w order contact o).store.book.detail? (Store.line? w.store.catalog) order =
      some (placedDetail w order contact o) := by
  rw [OrderBook.detail?, get?_placedIn]
  rfl

/-- What the job store says to the job, and the store afterwards.  A refusal does not undo the
order. -/
def submission (w : World) (buyer : UserId) (order : OrderId) : Except JobFault JobId × JobStore :=
  (JobCall.enqueue (notification w buyer order)).step w.jobs w.clock

/-- The world after a checkout. -/
def checkedOut (w : World) (buyer : UserId) (order : OrderId) (contact : ContactId) (o : Order) :
    World :=
  { placedIn w order contact o with
    jobs := (submission w buyer order).2, issued := w.issued + 1 }

/-- Placing the order and submitting the job.  From here on nothing is refused any more, for what
could be has been checked. -/
theorem run_settle {o : Order} (ho : w.store.book.orders.get? order = some o)
    (hbasket : o.status = .basket) (hcontact : w.store.book.contacts.contains contact = true) :
    (settle buyer order contact).run.run World.handle w =
      some (.ok ⟨placedDetail w order contact o, (submission w buyer order).1.toOption⟩,
        checkedOut w buyer order contact o) := by
  have hplaced : o.place contact = .ok (o.placed contact) :=
    Order.place_ok_iff.mpr ⟨Order.isBasket_iff.mpr hbasket, rfl⟩
  have hplace : (Service.orders (.place order contact)).run.run World.handle w =
      some (.ok true, placedIn w order contact o) := by
    rw [run_orders]
    simp only [OrderCall.step, Store.tryBook, OrderBook.placeOrder, hcontact, ho, hplaced]
    rfl
  have hfound : (Service.orders (.detail order)).run.run World.handle
      (placedIn w order contact o) =
        some (.ok (some (placedDetail w order contact o)), placedIn w order contact o) := by
    rw [run_orders]
    simp only [OrderCall.step]
    rw [← detail?_placedIn]
    rfl
  have hdetail : (detail order).run.run World.handle (placedIn w order contact o) =
      some (.ok (placedDetail w order contact o), placedIn w order contact o) := by
    rw [detail, run_bind_of_ok hfound]
    rfl
  rw [settle, run_bind_of_ok hplace]
  simp only [Bool.not_true, Bool.false_eq_true, if_false]
  rw [run_bind_of_ok hdetail]
  rfl

/-! ## The whole of a checkout -/

/-- What is run under a lock that is free and does not touch the locks: the lock is taken, the
answer is kept, and the lock is given back whatever the answer is. -/
theorem run_locked {x : Service α} {r : Except Refusal α} (hfree : buyer ∉ w.locked) (v : World)
    (hx : x.run.run World.handle { w with locked := buyer :: w.locked } =
      some (r, { v with locked := buyer :: w.locked })) :
    (Service.locked buyer x).run.run World.handle w = some (r, { v with locked := w.locked }) := by
  have hlock : w.handle (.lock buyer) = some ((), { w with locked := buyer :: w.locked }) := by
    simp [World.handle, hfree]
  have hunlock : ({ v with locked := buyer :: w.locked } : World).handle (.unlock buyer) =
      some ((), { v with locked := w.locked }) := by
    simp [World.handle]
  show (Program.call (.lock buyer) fun _ =>
    x.run.bind fun a => (Program.ask (.unlock buyer)).bind fun _ => .done a).run _ _ = _
  simp only [Program.run, hlock, run_bind, hx, Option.bind_some, Program.ask, Program.bind, hunlock]

/-- As long as the lock is held, whoever wants it waits. -/
theorem run_locked_of_held (x : Service α) (hheld : buyer ∈ w.locked) :
    (Service.locked buyer x).run.run World.handle w = none := by
  have hlock : w.handle (.lock buyer) = none := by
    simp [World.handle, hheld]
  show (Program.call (.lock buyer) fun _ =>
    x.run.bind fun a => (Program.ask (.unlock buyer)).bind fun _ => .done a).run _ _ = _
  simp only [Program.run, hlock]

/-- The order is the buyer's basket and has items, and the contact is the buyer's. -/
structure Ready (b : OrderBook) (buyer : UserId) (order : OrderId) (contact : ContactId) :
    Prop where
  basket : IsBasketOf b buyer order
  contact : IsContactOf b buyer contact
  items : 1 ≤ b.itemCount order

/-- A checkout that is not in order changes nothing.  The first check that fails decides, and all of
them come before the first call that writes. -/
theorem run_checkout_error (hfree : buyer ∉ w.locked)
    (h : ¬Ready w.store.book buyer order contact) :
    ∃ f, (checkout buyer order contact).run.run World.handle w = some (.error f, w) ∧
      (¬IsBasketOf w.store.book buyer order → ∀ o, w.store.book.orders.get? order = some o →
        f.kind = if o.buyer = buyer then .invalidTransition else .notFound) := by
  let v : World := { w with locked := buyer :: w.locked }
  rw [checkout_eq]
  by_cases hbasket : IsBasketOf w.store.book buyer order
  · have hpassed : (requireBasket buyer order).run.run World.handle v = some (.ok (), v) :=
      run_requireBasket hbasket
    by_cases hcontact : IsContactOf w.store.book buyer contact
    · have hpassed' : (requireContact buyer contact).run.run World.handle v = some (.ok (), v) :=
        run_requireContact hcontact
      have hitems : ¬1 ≤ v.store.book.itemCount order := fun hitems =>
        h ⟨hbasket, hcontact, hitems⟩
      obtain ⟨f, hrun⟩ := run_requireItems_error hitems
      refine ⟨f, run_locked hfree w ?_, fun hnot => absurd hbasket hnot⟩
      rw [run_bind_of_ok hpassed, run_bind_of_ok hpassed']
      exact run_bind_of_error hrun
    · obtain ⟨f, hrun⟩ := run_requireContact_error (w := v) hcontact
      refine ⟨f, run_locked hfree w ?_, fun hnot => absurd hbasket hnot⟩
      rw [run_bind_of_ok hpassed]
      exact run_bind_of_error hrun
  · obtain ⟨f, hrun, hkind⟩ := run_requireBasket_error (w := v) hbasket
    exact ⟨f, run_locked hfree w (run_bind_of_error hrun), fun _ => hkind⟩

/-- A checkout that is in order places the order and submits the job. -/
theorem run_checkout {o : Order} (hfree : buyer ∉ w.locked)
    (ho : w.store.book.orders.get? order = some o)
    (h : Ready w.store.book buyer order contact) :
    (checkout buyer order contact).run.run World.handle w =
      some (.ok ⟨placedDetail w order contact o, (submission w buyer order).1.toOption⟩,
        checkedOut w buyer order contact o) := by
  let v : World := { w with locked := buyer :: w.locked }
  have hbasket : o.status = .basket := by
    obtain ⟨p, hp, -, hbasket⟩ := h.basket
    rw [ho] at hp
    cases hp
    exact hbasket
  have hcontact : w.store.book.contacts.contains contact = true := by
    obtain ⟨x, hx, -⟩ := h.contact
    exact Table.contains_of_get? hx
  have hpassed : (requireBasket buyer order).run.run World.handle v = some (.ok (), v) :=
    run_requireBasket h.basket
  have hpassed' : (requireContact buyer contact).run.run World.handle v = some (.ok (), v) :=
    run_requireContact h.contact
  have hpassed'' : (requireItems order).run.run World.handle v = some (.ok (), v) :=
    run_requireItems h.items
  rw [checkout_eq]
  refine run_locked hfree (checkedOut w buyer order contact o) ?_
  rw [run_bind_of_ok hpassed, run_bind_of_ok hpassed', run_bind_of_ok hpassed'']
  exact run_settle (w := v) ho hbasket hcontact

end Orders

namespace Pool

variable {admitted : Program Unit → Prop} {P Q : Pool}

/-! ## Checkouts in reachable states -/

/-- Unless a commit is between its halves, every order item has a line.  In between the item may be
there and its listing gone, and it would then be left out. -/
theorem Reachable.exists_line (h : P.Reachable Program.ThroughServices) (hquiet : P.Quiet)
    {k : OrderItemId} {i : OrderItem} (hi : P.world.store.book.items.get? k = some i) :
    ∃ line, Store.line? P.world.store.catalog i = some line ∧ line.item i.order = i := by
  have hadds : P.Reachable Program.AddsByService := h.mono fun _ hp => hp.addsByService
  obtain ⟨-, -, -, hthere⟩ := h.book.items k i hi
  obtain ⟨-, -, -, -, hshop⟩ := hadds.vouched.1.items k i hi
  obtain ⟨l, hl⟩ := Table.contains_iff.mp (hthere hquiet)
  exact h.store.sound.catalog.exists_line hl (hshop _ (Or.inl rfl) l hl)

/-- The lines of an order that has just been placed are those of all its items. -/
theorem Reachable.lines_placedDetail (h : P.Reachable Program.ThroughServices) (hquiet : P.Quiet)
    (order : OrderId) (contact : ContactId) (o : Order) :
    (Orders.placedDetail P.world order contact o).lines.map (OrderLine.item order) =
      P.world.store.book.itemsOf order :=
  OrderBook.detail_itemsOf (b := (Orders.placedIn P.world order contact o).store.book)
    (fun _ _ hi => h.exists_line hquiet hi) (o.placed contact) order

/-- As long as new identifiers can be told from old ones, the job is taken. -/
theorem Reachable.submission_eq (h : P.Reachable Program.ThroughServices)
    (hissued : P.world.issued + 1 < 2 ^ 74) (buyer : UserId) (order : OrderId) :
    Orders.submission P.world buyer order =
      (.ok (Orders.notification P.world buyer order).id,
        { P.world.jobs with
          jobs := P.world.jobs.jobs ++ [Orders.notification P.world buyer order] }) := by
  have hfresh : P.world.jobs.find? (Orders.notification P.world buyer order).id = none :=
    h.newJobId_fresh hissued
  simp only [Orders.submission, JobCall.step, JobStore.enqueue, hfresh]

/-- Once an order is placed, no checkout of it succeeds at any later time, for it is never a basket
again. -/
theorem Later.checkout_error {order : OrderId} {o : Order} (hlater : Later admitted P Q)
    (hb : P.world.store.book.Lawful) (ho : P.world.store.book.orders.get? order = some o)
    (hplaced : o.status ≠ .basket) {buyer : UserId} (hfree : buyer ∉ Q.world.locked)
    (contact : ContactId) :
    ∃ f, (Orders.checkout buyer order contact).run.run World.handle Q.world =
        some (.error f, Q.world) ∧
      f.kind = if buyer = o.buyer then .invalidTransition else .notFound := by
  obtain ⟨o', ho', hbecomes⟩ := hlater.keepsOrders hb order o ho
  have hplaced' : o'.status ≠ .basket := hbecomes.status_ne_basket hplaced
  have hnot : ¬Orders.IsBasketOf Q.world.store.book buyer order := by
    rintro ⟨p, hp, -, hbasket⟩
    rw [ho'] at hp
    cases hp
    exact hplaced' hbasket
  have hready : ¬Orders.Ready Q.world.store.book buyer order contact :=
    fun hready => hnot hready.basket
  obtain ⟨f, hrun, hkind⟩ := Orders.run_checkout_error hfree hready
  refine ⟨f, hrun, ?_⟩
  rw [hkind hnot o' ho', hbecomes.buyer]
  simp only [eq_comm]

/-- What a checkout that succeeds does, shows, and means for all that comes after it. -/
structure CheckedOut (P : Pool) (buyer : UserId) (order : OrderId) (contact : ContactId)
    (out : CheckoutOutcome) (w : World) : Prop where
  /-- The order is placed for the contact, and besides the jobs nothing else is changed. -/
  placed : ∃ o, P.world.store.book.orders.get? order = some o ∧
    w = { P.world with
      store := { P.world.store with book := { P.world.store.book with
        orders := P.world.store.book.orders.insert order
          { o with status := .new, contact := some contact } } }
      jobs := w.jobs
      issued := P.world.issued + 1 }
  /-- One job is added, as long as new identifiers can be told from old ones. -/
  job : P.world.issued + 1 < 2 ^ 74 → ∃ job : Job,
    w.jobs = { P.world.jobs with jobs := P.world.jobs.jobs ++ [job] } ∧
      (∀ j ∈ P.world.jobs.jobs, j.id ≠ job.id) ∧ job.status = .pending ∧ job.owner = buyer ∧
      job.payload = .notifyOrderPlaced buyer order ∧ out.notification = some job.id
  /-- The buyer is shown the order as it is then. -/
  detail : w.store.book.detail? (Store.line? w.store.catalog) order = some out.order
  /-- Unless a commit is between its halves, each item is shown, and there is one. -/
  lines : P.Quiet →
    out.order.lines.map (OrderLine.item order) = P.world.store.book.itemsOf order ∧
      out.order.lines ≠ []
  /-- Whatever programs go on, no checkout of the order succeeds any more. -/
  later : ∀ (any : Program Unit → Prop) (Q : Pool), Later any ⟨w, P.activities⟩ Q →
    ∀ buyer' contact', buyer' ∉ Q.world.locked →
      ∃ f, (Orders.checkout buyer' order contact').run.run World.handle Q.world =
          some (.error f, Q.world) ∧
        f.kind = if buyer' = buyer then .invalidTransition else .notFound

theorem Reachable.checkedOut (h : P.Reachable Program.ThroughServices) {buyer : UserId}
    {order : OrderId} {contact : ContactId} {o : Order}
    (ho : P.world.store.book.orders.get? order = some o) (hbuyer : o.buyer = buyer)
    (hitems : 1 ≤ P.world.store.book.itemCount order) :
    P.CheckedOut buyer order contact
      ⟨Orders.placedDetail P.world order contact o,
        (Orders.submission P.world buyer order).1.toOption⟩
      (Orders.checkedOut P.world buyer order contact o) where
  placed := ⟨o, ho, rfl⟩
  job := by
    intro hissued
    have hsubmission := h.submission_eq hissued buyer order
    have hfresh := h.newJobId_fresh hissued
    refine ⟨Orders.notification P.world buyer order, congrArg Prod.snd hsubmission, ?_, rfl, rfl,
      rfl, ?_⟩
    · intro j hj hid
      exact List.find?_eq_none.mp hfresh j hj (beq_iff_eq.mpr hid)
    · rw [hsubmission]
      rfl
  detail := Orders.detail?_placedIn P.world order contact o
  lines := by
    intro hquiet
    have hlines := h.lines_placedDetail hquiet order contact o
    refine ⟨hlines, fun hnone => ?_⟩
    rw [hnone] at hlines
    rw [OrderBook.itemCount, ← hlines] at hitems
    cases hitems
  later := by
    intro any Q hlater buyer' contact' hfree
    have hplaced : (Orders.checkedOut P.world buyer order contact o).store.book.orders.get? order =
        some (o.placed contact) := Orders.get?_placedIn P.world order contact o
    have hlawful : (Orders.checkedOut P.world buyer order contact o).store.book.Lawful :=
      h.lawful.place ho
    rw [← hbuyer]
    exact hlater.checkout_error hlawful hplaced nofun hfree contact'

/-- In a reachable state a checkout whose buyer's lock is free comes to an end.  It succeeds if and
only if the order is the buyer's basket and has items and the contact is the buyer's; otherwise
nothing changes.  On success the order is placed for the contact, one new pending job that tells
people of it is the buyer's, and nothing else changes. -/
theorem Reachable.checkout_exact (h : P.Reachable Program.ThroughServices) {buyer : UserId}
    (hfree : buyer ∉ P.world.locked) (order : OrderId) (contact : ContactId) :
    ∃ r w, (Orders.checkout buyer order contact).run.run World.handle P.world = some (r, w) ∧
      ((∃ out, r = .ok out) ↔
        (∃ o, P.world.store.book.orders.get? order = some o ∧ o.buyer = buyer ∧
          o.status = .basket) ∧
        1 ≤ P.world.store.book.itemCount order ∧
        ∃ x, P.world.store.book.contacts.get? contact = some x ∧ x.user = buyer) ∧
      (∀ out, r = .ok out → P.CheckedOut buyer order contact out w) ∧
      ∀ f, r = .error f → w = P.world := by
  by_cases hready : Orders.Ready P.world.store.book buyer order contact
  · obtain ⟨o, ho, hbuyer, hbasket⟩ := hready.basket
    refine ⟨_, _, Orders.run_checkout hfree ho hready, ?_, ?_, nofun⟩
    · exact ⟨fun _ => ⟨hready.basket, hready.items, hready.contact⟩, fun _ => ⟨_, rfl⟩⟩
    · rintro out ⟨⟩
      exact h.checkedOut ho hbuyer hready.items
  · obtain ⟨f, hrun, -⟩ := Orders.run_checkout_error hfree hready
    refine ⟨.error f, P.world, hrun, ⟨?_, ?_⟩, ?_, fun _ _ => rfl⟩
    · rintro ⟨out, hout⟩
      cases hout
    · rintro ⟨hbasket, hitems, hcontact⟩
      exact absurd (Orders.Ready.mk hbasket hcontact hitems) hready
    · intro out hout
      cases hout

/-- The steps of `phoneOrder` up to the beginning of the checkout. -/
def basketSteps : List Nat := List.replicate 13 0 ++ List.replicate 6 1

/-- The checkout of `phoneOrder` succeeds, and a second one does not. -/
theorem Reachable.checkout_exact_in_phoneOrder : ∃ (P : Pool) (out : CheckoutOutcome) (w : World)
    (job : Job), P.Reachable Program.ThroughServices ∧ ⟨7⟩ ∉ P.world.locked ∧
      (Orders.checkout ⟨7⟩ ⟨1⟩ ⟨1⟩).run.run World.handle P.world = some (.ok out, w) ∧
      out.order.lines.map (OrderLine.item ⟨1⟩) = [⟨⟨1⟩, ⟨1⟩, ⟨1⟩, ⟨1⟩, 3⟩] ∧
      w.jobs.jobs = [job] ∧ job.payload = .notifyOrderPlaced ⟨7⟩ ⟨1⟩ ∧
      ∃ f, (Orders.checkout ⟨7⟩ ⟨1⟩ ⟨1⟩).run.run World.handle w = some (.error f, w) ∧
        f.kind = .invalidTransition := by
  have hplay : (Pool.play basketSteps ⟨.start ⟨0, 0⟩ 3, phoneOrder.map .start⟩).any (fun P =>
      P.world.store.draft.isNone && P.world.locked.isEmpty && P.world.jobs.jobs.isEmpty &&
        decide (P.world.issued = 0 ∧
          P.world.store.book.orders.get? ⟨1⟩ = some ⟨⟨1⟩, ⟨7⟩, .basket, ⟨0, 0⟩, none⟩ ∧
          P.world.store.book.itemsOf ⟨1⟩ = [⟨⟨1⟩, ⟨1⟩, ⟨1⟩, ⟨1⟩, 3⟩] ∧
          (P.world.store.book.contacts.get? ⟨1⟩).map (·.user) = some ⟨7⟩)) = true := by
    decide +kernel
  obtain ⟨P, hP, hfacts⟩ := (Option.any_eq_true _ _).mp hplay
  simp only [Bool.and_eq_true, Option.isNone_iff_eq_none, List.isEmpty_iff,
    Option.map_eq_some_iff, decide_eq_true_eq] at hfacts
  obtain ⟨⟨⟨hdraft, hlocked⟩, hjobs⟩, hissued, ho, hitems, x, hx, huser⟩ := hfacts
  have hreach := (Reachable.begin ⟨0, 0⟩ 3 throughServices_phoneOrder).play hP
  have hfree : (⟨7⟩ : UserId) ∉ P.world.locked := by simp [hlocked]
  obtain ⟨r, w, hrun, hiff, hok, -⟩ := hreach.checkout_exact hfree ⟨1⟩ ⟨1⟩
  have hcount : 1 ≤ P.world.store.book.itemCount ⟨1⟩ := by
    rw [OrderBook.itemCount, hitems]
    exact Nat.le_refl 1
  obtain ⟨out, rfl⟩ := hiff.mpr ⟨⟨_, ho, rfl, rfl⟩, hcount, x, hx, huser⟩
  have hdone := hok out rfl
  obtain ⟨hlines, -⟩ := hdone.lines (hreach.orderly.quiet hdraft)
  obtain ⟨job, hadded, -, -, -, hpayload, -⟩ := hdone.job (by rw [hissued]; decide)
  obtain ⟨o, -, hw⟩ := hdone.placed
  have hfree' : (⟨7⟩ : UserId) ∉ w.locked := by
    rw [hw]
    exact hfree
  refine ⟨P, out, w, job, hreach, hfree, hrun, hlines.trans hitems, ?_, hpayload, ?_⟩
  · rw [hadded, hjobs]
    rfl
  · exact hdone.later Program.ThroughServices ⟨w, P.activities⟩ .refl ⟨7⟩ ⟨1⟩ hfree'

end Pool

end Marketplace
