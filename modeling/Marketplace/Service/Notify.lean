import Marketplace.Service.Basic
set_option autoImplicit false

/-!
# Telling people of a placed order

The buyer gets one message, and so does each owner of a shop in the order, with the lines of that
shop.  Owners who share an address get one message at it.  A message that cannot be sent does not
keep the others from being sent.
-/

namespace Marketplace

/-- What has become of the messages. -/
structure NotifyReport where
  sent : Nat
  /-- People whose address is not known. -/
  skipped : Nat
  /-- Addresses that could not be reached. -/
  failed : List String
  deriving DecidableEq, Repr

/-- The JSON form. -/
def NotifyReport.toJson (r : NotifyReport) : Json.Value :=
  .object [("sent", .nat r.sent), ("skipped", .nat r.skipped),
    ("failed", .array (r.failed.map .text))]

namespace Notify

/-- The text that lists lines under a headline. -/
def body (headline : String) (lines : List OrderLine) : String :=
  headline ++ "\n\n" ++
    String.join (lines.map fun l =>
      s!"- {l.productName} {l.model} x{l.quantity} @ {l.priceRrc} = {l.total}\n") ++
    s!"\nTotal: {OrderDetail.sum lines}\n"

/-- The message to the buyer. -/
def buyerMail (address : String) (d : OrderDetail) : Mail :=
  ⟨address, s!"Order {d.order.id} placed",
    body s!"Your order {d.order.id} has been placed." d.lines⟩

/-- The message to the owner of a shop, with the lines of that shop. -/
def ownerMail (address : String) (shop : Shop) (d : OrderDetail) : Mail :=
  ⟨address, s!"New order {d.order.id}",
    body s!"Order {d.order.id} contains items from {shop.name}."
      (d.lines.filter fun l => l.shop = shop.id)⟩

/-- Messages to be sent, and how many people cannot be told. -/
structure Batch where
  mails : List Mail
  skipped : Nat
  deriving DecidableEq, Repr

/-- The batch with one more person who cannot be told. -/
def Batch.skip (b : Batch) : Batch := { b with skipped := b.skipped + 1 }

/-- The batch with one more message in front. -/
def Batch.add (b : Batch) (m : Mail) : Batch := { b with mails := m :: b.mails }

/-- The messages to the owners of shops; `seen` are the addresses that have one already. -/
def ownerMails (d : OrderDetail) : List ShopId → List String → Service Batch
  | [], _ => pure ⟨[], 0⟩
  | id :: ids, seen => do
    match ← Service.catalog (.shop id) with
    | none => ownerMails d ids seen
    | some shop =>
      match ← Service.account shop.owner with
      | none => return (← ownerMails d ids seen).skip
      | some owner =>
        if seen.contains owner.email then ownerMails d ids seen
        else return (← ownerMails d ids (owner.email :: seen)).add (ownerMail owner.email shop d)

/-- The messages of an order: first the buyer's, then the owners' in the order of their shops. -/
def mails (buyer : UserId) (d : OrderDetail) : Service Batch := do
  let account ← Service.account buyer
  let owners ← ownerMails d d.shops []
  pure (match account with
    | some a => owners.add (buyerMail a.email d)
    | none => owners.skip)

/-- Sends messages one after the other; the answer is how many were sent, and which addresses could
not be reached. -/
def sendAll : List Mail → Program (Nat × List String)
  | [] => pure (0, [])
  | m :: ms => do
    let r ← Program.ask (.send m)
    let (sent, failed) ← sendAll ms
    pure (match r with
      | .ok _ => (sent + 1, failed)
      | .error _ => (sent, m.recipient :: failed))

/-- Tells the buyer and the owners of the shops of an order of the buyer. -/
def order (buyer : UserId) (id : OrderId) : Service NotifyReport := do
  let found ← Service.orders (.detail id)
  let d ← Service.orRefuse (Order.absent id) found
  Service.ofExcept (d.order.ensureOwnedBy buyer)
  let batch ← mails buyer d
  let (sent, failed) ← ExceptT.lift (sendAll batch.mails)
  pure ⟨sent, batch.skipped, failed⟩

end Notify

end Marketplace
