import Marketplace.Order.Request
import Marketplace.Service.Jobs
import Marketplace.Service.Shops
set_option autoImplicit false

/-!
# Baskets and orders

What a buyer does to the basket and to orders, while nobody else works on them, and what a shop sees
of orders.
-/

namespace Marketplace

/-- An order that has just been placed, with the job that tells people of it; there is none if it
could not be submitted. -/
structure CheckoutOutcome where
  order : OrderDetail
  notification : Option JobId
  deriving DecidableEq, Repr

/-- The JSON form. -/
def CheckoutOutcome.toJson (o : CheckoutOutcome) : Json.Value :=
  .object [("order", o.order.toJson), ("notification", .ofOption JobId.toJson o.notification)]

namespace Orders

/-- An order with its lines. -/
def detail (id : OrderId) : Service OrderDetail := do
  let found ← Service.orders (.detail id)
  Service.orRefuse (Order.absent id) found

/-- The buyer's basket, which is made when it is first asked for. -/
def basket (buyer : UserId) : Service OrderDetail :=
  Service.locked buyer do
    let basket ← Service.orders (.basket buyer)
    detail basket.id

/-- The refusal of an item that the storage does not take: a broken constraint is told with the
place of the entry. -/
def refuseItem (index : Nat) (f : StorageFault) : Refusal :=
  let r := f.refusal
  if r.kind = .constraintViolation then .constraint s!"items[{index}]: {r.detail}" else r

/-- Adds one entry to the basket. -/
def addItem (basket : OrderId) (index : Nat) (input : AddInput) : Service OrderItem := do
  let item ← Service.ofExcept (input.check index)
  match ← Service.catalog (.listing item.listing) with
  | none =>
    throw (.invalidArguments s!"items[{index}].listing: listing {item.listing} does not exist")
  | some listing =>
    if !listing.shop.acceptingOrders then
      throw (.invalidArguments
        s!"items[{index}].listing: shop '{listing.shop.name}' is not accepting orders")
    let row ← ExceptT.lift (Program.ask
      (.store (.orders (.insertItem basket listing.id listing.shop.id item.quantity))))
    Service.ofExcept (row.mapError (refuseItem index))

/-- Adds entries to the basket up to the first one that is refused. -/
def addEach (basket : OrderId) : Nat → List AddInput → Service (List OrderItem)
  | _, [] => pure []
  | index, input :: inputs => do
    let item ← addItem basket index input
    let items ← addEach basket (index + 1) inputs
    pure (item :: items)

/-- Adds entries to the basket.  The first one that is not acceptable ends it and is reported; those
before it stay. -/
def add (buyer : UserId) (inputs : List AddInput) : Service (List OrderItem) := do
  if inputs.isEmpty then Service.refuse (.invalidArguments "items: must not be empty")
  Service.locked buyer do
    let basket ← Service.orders (.basket buyer)
    addEach basket.id 0 inputs

/-- Changes quantities and counts the changes. -/
def updateEach (basket : OrderId) : List (OrderItemId × Int) → Service Nat
  | [] => pure 0
  | (item, quantity) :: updates => do
    let changed ← Service.orders (.updateQuantity basket item quantity)
    let count ← updateEach basket updates
    pure (if changed then count + 1 else count)

/-- Changes quantities of the basket's items; entries that are not well formed or name other items
are passed over. -/
def update (buyer : UserId) (inputs : List UpdateInput) : Service Nat :=
  Service.locked buyer do
    let basket ← Service.orders (.basket buyer)
    updateEach basket.id (inputs.filterMap UpdateInput.wellFormed?)

/-- Takes items out of the basket; other items are passed over. -/
def remove (buyer : UserId) (ids : List OrderItemId) : Service Nat :=
  Service.locked buyer do
    let basket ← Service.orders (.basket buyer)
    if ids.isEmpty then pure 0 else Service.orders (.deleteItems basket.id ids)

/-- How often telling people of an order is tried. -/
def notifyAttempts : Nat := 3

/-- The job that tells people of an order. -/
def notifyJob (buyer : UserId) (order : OrderId) : Program Job := do
  let job ← JobService.create buyer (.notifyOrderPlaced buyer order)
  pure { job with policy := { RetryPolicy.usual with maxAttempts := notifyAttempts } }

/-- Places the basket for a contact. -/
def checkout (buyer : UserId) (order : OrderId) (contact : ContactId) : Service CheckoutOutcome :=
  Service.locked buyer do
    let found ← Service.orders (.order order)
    let current ← Service.orRefuse (Order.absent order) found
    Service.ofExcept (current.ensureOwnedBy buyer)
    let _ ← Service.ofExcept (current.status.become .new)
    if (← Service.contacts (.one buyer contact)).isNone then
      Service.refuse (.notFound s!"contact {contact}")
    if (← Service.orders (.itemCount order)) = (0 : Nat) then
      Service.refuse (.invalidArguments "basket is empty")
    if !(← Service.orders (.place order contact)) then
      Service.refuse (.invalidTransition s!"order {order} is no longer a basket")
    let placed ← detail order
    let job ← ExceptT.lift (notifyJob buyer order)
    let submitted ← ExceptT.lift (JobService.submit job).run
    pure ⟨placed, submitted.toOption⟩

/-- The placed orders of a buyer, newest first. -/
def ofBuyer (buyer : UserId) : Service (List OrderDetail) := Service.orders (.ofBuyer buyer)

/-- The placed orders with lines of the account's shop, with those lines only, newest first. -/
def ofShop (a : Account) : Service (List OrderDetail) := do
  let shop ← Shops.own a
  Service.orders (.ofShop shop.id)

/-- One of the buyer's orders; a basket is one too. -/
def get (buyer : UserId) (order : OrderId) : Service OrderDetail := do
  let found ← detail order
  Service.ofExcept (found.order.ensureOwnedBy buyer)
  pure found

end Orders

end Marketplace
