import Marketplace.Proofs.Order.Items
import Marketplace.Service.Contacts
set_option autoImplicit false

/-!
# Programs that go through the services

What buyers ask for, as one type, and the programs that work on orders in no other way: they read
what they like, keep contacts, import and submit jobs, but items are changed, orders placed and
locks taken by errands alone.  For this, and for what is said of it elsewhere, a checkout is cut
into its checks and the placing of the order.

Errands are data, not programs, so that statements can range over all that a buyer may ask for and
tell one request from another.  What any of them may do to the storage is told once, by the calls
that it makes (`makes_service`); a new request would need one more case there and nothing elsewhere.
-/

namespace Marketplace

/-! ## The parts of a checkout -/

namespace Orders

/-- The order must be there, be the buyer's, and be a basket still. -/
def requireBasket (buyer : UserId) (order : OrderId) : Service Unit := do
  let found ← Service.orders (.order order)
  let current ← Service.orRefuse (Order.absent order) found
  Service.ofExcept (current.ensureOwnedBy buyer)
  let _ ← Service.ofExcept (current.status.become .new)

/-- The contact must be there and be the buyer's. -/
def requireContact (buyer : UserId) (contact : ContactId) : Service Unit := do
  if (← Service.contacts (.one buyer contact)).isNone then
    Service.refuse (.notFound s!"contact {contact}")

/-- The order must have items. -/
def requireItems (order : OrderId) : Service Unit := do
  if (← Service.orders (.itemCount order)) = (0 : Nat) then
    Service.refuse (.invalidArguments "basket is empty")

/-- Places the order and submits the job that tells people of it. -/
def settle (buyer : UserId) (order : OrderId) (contact : ContactId) : Service CheckoutOutcome := do
  if !(← Service.orders (.place order contact)) then
    Service.refuse (.invalidTransition s!"order {order} is no longer a basket")
  let placed ← detail order
  let job ← ExceptT.lift (notifyJob buyer order)
  let submitted ← ExceptT.lift (JobService.submit job).run
  pure ⟨placed, submitted.toOption⟩

theorem refuse_bind {α β : Type} (r : Refusal) (f : α → Service β) :
    (Service.refuse r >>= f) = Service.refuse r := rfl

/-- A service that refuses on a condition and goes on otherwise is a choice between the two. -/
theorem refuse_if_bind {β : Type} (p : Prop) [Decidable p] (r : Refusal) (f : Unit → Service β) :
    ((if p then Service.refuse r else pure ()) >>= f) = if p then Service.refuse r else f () := by
  split <;> rfl

/-- A checkout is its checks, one after the other, and then the placing of the order. -/
theorem checkout_eq (buyer : UserId) (order : OrderId) (contact : ContactId) :
    checkout buyer order contact = Service.locked buyer (do
      requireBasket buyer order
      requireContact buyer contact
      requireItems order
      settle buyer order contact) := by
  simp only [checkout, requireBasket, requireContact, requireItems, settle, bind_assoc,
    refuse_bind, refuse_if_bind, pure_bind]

end Orders

/-! ## What buyers ask for -/

/-- What a buyer asks for. -/
inductive Errand
  | basket
  | add (inputs : List AddInput)
  | update (inputs : List UpdateInput)
  | remove (ids : List OrderItemId)
  | checkout (order : OrderId) (contact : ContactId)

namespace Errand

/-- What the errand brings. -/
abbrev Result : Errand → Type
  | .basket => OrderDetail
  | .add _ => List OrderItem
  | .update _ | .remove _ => Nat
  | .checkout _ _ => CheckoutOutcome

/-- The service that does the errand for a buyer. -/
def service (buyer : UserId) : (e : Errand) → Service e.Result
  | .basket => Orders.basket buyer
  | .add inputs => Orders.add buyer inputs
  | .update inputs => Orders.update buyer inputs
  | .remove ids => Orders.remove buyer ids
  | .checkout order contact => Orders.checkout buyer order contact

end Errand

/-! ## The calls of errands -/

/-- The call is about orders, and if it names an account, it is the buyer's. -/
def Call.IsFor (buyer : UserId) : Call → Prop
  | .lock user | .unlock user | .store (.orders (.basket user)) => user = buyer
  | .job (.enqueue j) => j.owner = buyer
  | .store (.orders _) | .store (.catalog (.listing _)) | .store (.contacts (.one _ _))
  | .now | .newJobId => True
  | _ => False

namespace Service

variable {P : Call → Prop} {α : Type}

theorem calls_ofExcept (x : Except Refusal α) : (ofExcept x).run.Calls P := by
  cases x <;> trivial

theorem calls_orRefuse (r : Refusal) (x : Option α) : (orRefuse r x).run.Calls P := by
  cases x <;> trivial

theorem calls_store {c : StoreCall} (hc : P (.store c)) : (store c).run.Calls P :=
  ⟨hc, fun _ => trivial⟩

end Service

namespace Orders

/-- The program works on orders for the buyer alone, and adds items only if that is what it is
for. -/
def Makes (buyer : UserId) (adds : Prop) {α : Type} (x : Service α) : Prop :=
  x.run.Calls fun c => c.IsFor buyer ∧ (c.insertion? = none ∨ adds)

variable {α β : Type} {buyer : UserId} {adds : Prop}

/-- What two services make of calls, they make one after the other as well. -/
theorem Makes.bind {x : Service α} {f : α → Service β} (hx : Makes buyer adds x)
    (hf : ∀ a, Makes buyer adds (f a)) : Makes buyer adds (x >>= f) :=
  .exceptT_bind hx hf

theorem makes_store {c : StoreCall} (hfor : (Call.store c).IsFor buyer)
    (hc : (Call.store c).insertion? = none) : Makes buyer adds (Service.store c) :=
  Service.calls_store ⟨hfor, Or.inl hc⟩

theorem makes_ofExcept (x : Except Refusal α) : Makes buyer adds (Service.ofExcept x) :=
  Service.calls_ofExcept x

theorem makes_orRefuse (r : Refusal) (x : Option α) :
    Makes buyer adds (Service.orRefuse r x) := Service.calls_orRefuse r x

/-- Taking the lock of the buyer is a call of the buyer. -/
theorem makes_locked {x : Service α} (hx : Makes buyer adds x) :
    Makes buyer adds (Service.locked buyer x) := by
  refine ⟨⟨rfl, Or.inl rfl⟩, fun _ => ?_⟩
  show (x.run.bind fun a => (Program.ask (.unlock buyer)).bind fun _ => .done a).Calls _
  exact .bind hx fun _ => ⟨⟨rfl, Or.inl rfl⟩, fun _ => trivial⟩

theorem makes_detail (order : OrderId) : Makes buyer adds (detail order) :=
  (makes_store (by trivial) rfl).bind fun found => makes_orRefuse _ found

/-- Adding an entry is the only part of an errand that stores an item, -/
theorem makes_addItem (basket : OrderId) (index : Nat) (input : AddInput) :
    Makes buyer True (addItem basket index input) := by
  refine (makes_ofExcept _).bind fun item => (makes_store (by trivial) rfl).bind fun found => ?_
  rcases found with - | v
  · trivial
  · simp only
    split
    · trivial
    · exact ⟨⟨trivial, Or.inr trivial⟩, fun r => makes_ofExcept _⟩

/-- and a list of entries stores items in no other way. -/
theorem makes_addEach (basket : OrderId) (index : Nat) (inputs : List AddInput) :
    Makes buyer True (addEach basket index inputs) := by
  induction inputs generalizing index with
  | nil => trivial
  | cons input inputs ih =>
    refine (makes_addItem basket index input).bind fun item => ?_
    exact (ih (index + 1)).bind fun items => trivial

theorem makes_updateEach (basket : OrderId) (updates : List (OrderItemId × Int)) :
    Makes buyer adds (updateEach basket updates) := by
  induction updates with
  | nil => trivial
  | cons update updates ih =>
    exact (makes_store (by trivial) rfl).bind fun changed => ih.bind fun count => trivial

theorem makes_checkout (order : OrderId) (contact : ContactId) :
    Makes buyer adds (checkout buyer order contact) := by
  rw [checkout_eq]
  refine makes_locked (.bind ?_ fun _ => .bind ?_ fun _ => .bind ?_ fun _ => ?_)
  · refine (makes_store (by trivial) rfl).bind fun found => (makes_orRefuse _ _).bind fun o => ?_
    exact (makes_ofExcept _).bind fun _ => (makes_ofExcept _).bind fun _ => trivial
  · refine (makes_store (by trivial) rfl).bind fun found => ?_
    split <;> trivial
  · refine (makes_store (by trivial) rfl).bind fun n => ?_
    split <;> trivial
  · refine (makes_store (by trivial) rfl).bind fun placed => ?_
    split
    · trivial
    · refine (makes_detail order).bind fun d => ?_
      exact ⟨⟨trivial, Or.inl rfl⟩, fun now => ⟨⟨trivial, Or.inl rfl⟩, fun id =>
        ⟨⟨rfl, Or.inl rfl⟩, fun r => trivial⟩⟩⟩

end Orders

namespace Errand

/-- The errand adds items. -/
def Adds : Errand → Prop
  | add _ => True
  | _ => False

/-- An errand works for the buyer whom it is for, and only one adds items. -/
theorem makes_service (buyer : UserId) (e : Errand) :
    Orders.Makes buyer e.Adds (e.service buyer) := by
  cases e with
  | basket =>
    exact Orders.makes_locked (.bind (Orders.makes_store rfl rfl) fun o => Orders.makes_detail o.id)
  | add inputs =>
    simp only [service, Orders.add]
    split
    · trivial
    · refine Orders.makes_locked (.bind (Orders.makes_store rfl rfl) fun o => ?_)
      exact Orders.makes_addEach _ _ _
  | update inputs =>
    refine Orders.makes_locked (.bind (Orders.makes_store rfl rfl) fun o => ?_)
    exact Orders.makes_updateEach _ _
  | remove ids =>
    refine Orders.makes_locked (.bind (Orders.makes_store rfl rfl) fun o => ?_)
    split
    · trivial
    · exact Orders.makes_store (by trivial) rfl
  | checkout order contact => exact Orders.makes_checkout order contact

/-- An errand takes no lock but that of the buyer whom it is for, and only one adds items. -/
theorem calls_service (buyer : UserId) (e : Errand) : (e.service buyer).run.Calls fun c =>
    (∀ user, c = .lock user → user = buyer) ∧ (c.insertion? = none ∨ e.Adds) := by
  refine (makes_service buyer e).imp fun c hc => ⟨?_, hc.2⟩
  rintro user rfl
  exact hc.1

end Errand

/-! ## Programs that leave orders to the services -/

/-- Calls that only services make: those that change items, place orders, take and give back locks,
and submit jobs. -/
def Call.isReserved : Call → Bool
  | .store (.orders (.insertItem _ _ _ _)) | .store (.orders (.updateQuantity _ _ _))
  | .store (.orders (.deleteItems _ _)) | .store (.orders (.place _ _))
  | .lock _ | .unlock _ | .job (.enqueue _) => true
  | _ => false

namespace Program

/-- The program makes any calls that are not reserved, does errands for any buyers, and submits new
jobs, as often as it likes. -/
inductive ThroughServices {α : Type} : Program α → Prop
  | done (a : α) : ThroughServices (.done a)
  | call {c : Call} {next : c.Reply → Program α} (hc : c.isReserved = false)
      (hnext : ∀ r, ThroughServices (next r)) : ThroughServices (.call c next)
  | errand (buyer : UserId) (e : Errand) {next : Except Refusal e.Result → Program α}
      (hnext : ∀ r, ThroughServices (next r)) :
    ThroughServices ((e.service buyer).run.bind next)
  | submit (owner : UserId) (payload : JobPayload) {next : Except JobFault JobId → Program α}
      (hnext : ∀ r, ThroughServices (next r)) :
    ThroughServices ((JobService.create owner payload).bind fun j =>
      (JobService.submit j).run.bind next)

namespace ThroughServices

variable {α β ε : Type}

theorem bind {p : Program α} {f : α → Program β} (hp : p.ThroughServices)
    (hf : ∀ a, (f a).ThroughServices) : (p.bind f).ThroughServices := by
  induction hp with
  | done a => exact hf a
  | call hc _ ih => exact call hc fun r => ih r
  | errand buyer e _ ih =>
    rw [Program.bind_assoc]
    exact errand buyer e fun r => ih r
  | submit owner payload _ ih =>
    simp only [Program.bind_assoc]
    exact submit owner payload fun r => ih r

theorem exceptT_bind {x : ExceptT ε Program α} {f : α → ExceptT ε Program β}
    (hx : x.run.ThroughServices) (hf : ∀ a, (f a).run.ThroughServices) :
    (x >>= f).run.ThroughServices := by
  rw [bind_exceptT]
  refine hx.bind ?_
  rintro (e | a)
  · exact done _
  · exact hf a

theorem of_calls {p : Program α} (hp : p.Calls fun c => c.isReserved = false) :
    p.ThroughServices := by
  induction p with
  | done a => exact done a
  | call c next ih => exact call hp.1 fun r => ih r (hp.2 r)

/-- Such a program adds no items but by the service for it. -/
theorem addsByService {p : Program α} (hp : p.ThroughServices) : p.AddsByService := by
  induction hp with
  | done a => exact .done a
  | @call c next hc _ ih =>
    refine .call ?_ fun r => ih r
    cases c with
    | store c =>
      cases c with
      | orders c =>
        cases c with
        | insertItem _ _ _ _ => cases hc
        | _ => rfl
      | _ => rfl
    | _ => rfl
  | errand buyer e _ ih =>
    cases e with
    | add inputs => exact .add buyer inputs fun r => ih r
    | _ =>
      refine .bind (.of_calls ((Errand.calls_service buyer _).imp fun c hc => ?_)) fun r => ih r
      exact hc.2.resolve_right id
  | submit owner payload _ ih => exact .call rfl fun _ => .call rfl fun _ => .call rfl fun r => ih r

end ThroughServices

end Program

/-! ## Contacts and imports -/

theorem Service.through_ofExcept {α : Type} (x : Except Refusal α) :
    (Service.ofExcept x).run.ThroughServices := by
  cases x <;> exact .done _

namespace Contacts

theorem through_call (c : ContactCall) : (Service.contacts c).run.ThroughServices :=
  .call rfl fun _ => .done _

theorem through_list (user : UserId) : (list user).run.ThroughServices :=
  through_call _

theorem through_create (user : UserId) (draft : AddressInput) :
    (create user draft).run.ThroughServices :=
  .exceptT_bind (Service.through_ofExcept _) fun _ => through_call _

theorem through_update (user : UserId) (id : ContactId) (patch : AddressInput) :
    (update user id patch).run.ThroughServices := by
  simp only [update]
  split
  · exact .done _
  · refine .exceptT_bind (Service.through_ofExcept _) fun _ => ?_
    refine .exceptT_bind (through_call _) fun found => ?_
    cases found <;> exact .done _

theorem through_delete (user : UserId) (ids : List ContactId) :
    (delete user ids).run.ThroughServices := by
  simp only [delete]
  split
  · exact .done _
  · exact through_call _

end Contacts

/-- Imports make no reserved calls. -/
theorem Importer.through_apply (list : PriceList) (user : UserId) :
    (apply list user).run.ThroughServices := by
  refine .of_calls ((calls_apply list user).imp ?_)
  rintro c ((rfl | hc | rfl) | rfl)
  · rfl
  · cases c with
    | store c =>
      cases c with
      | draft c => rfl
      | _ => exact hc.elim
    | _ => exact hc.elim
  · rfl
  · rfl

/-! ## Purchases -/

/-- A shop imports a phone; a buyer puts it into the basket and adds a contact; then the buyer
checks out, and the shop imports anew. -/
def phoneOrder : List (Program Unit) :=
  [(Importer.apply (Importer.phoneList "Svyaznoy") ⟨1⟩).run.bind fun _ => .done (),
    (Orders.add ⟨7⟩ [⟨some (.int 1), some (.int 3)⟩]).run.bind fun _ =>
      (Contacts.create ⟨7⟩ ⟨"Moscow", "Arbat", "1", none, none, none, "+7 495 000"⟩).run.bind
        fun _ => .done (),
    (Orders.checkout ⟨7⟩ ⟨1⟩ ⟨1⟩).run.bind fun _ => .done (),
    (Importer.apply (Importer.phoneList "Svyaznoy") ⟨1⟩).run.bind fun _ => .done ()]

theorem throughServices_phoneOrder : ∀ p ∈ phoneOrder, p.ThroughServices := by
  intro p hp
  simp only [phoneOrder, List.mem_cons, List.not_mem_nil, or_false] at hp
  rcases hp with rfl | rfl | rfl | rfl
  · exact (Importer.through_apply _ _).bind fun _ => .done ()
  · refine .errand ⟨7⟩ (.add [⟨some (.int 1), some (.int 3)⟩]) fun _ => ?_
    exact (Contacts.through_create _ _).bind fun _ => .done ()
  · exact .errand ⟨7⟩ (.checkout ⟨1⟩ ⟨1⟩) fun _ => .done ()
  · exact (Importer.through_apply _ _).bind fun _ => .done ()

theorem throughServices_phoneSale : ∀ p ∈ Importer.phoneSale, p.ThroughServices := by
  intro p hp
  simp only [Importer.phoneSale, List.mem_cons, List.not_mem_nil, or_false] at hp
  rcases hp with rfl | rfl | rfl
  · exact (Importer.through_apply _ _).bind fun _ => .done ()
  · exact (Importer.through_apply _ _).bind fun _ => .done ()
  · exact .errand ⟨7⟩ (.add [⟨some (.int 1), some (.int 3)⟩, ⟨some (.int 2), some (.int 1)⟩])
      fun _ => .done ()

end Marketplace
