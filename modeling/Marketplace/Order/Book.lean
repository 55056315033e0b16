import Marketplace.Order.Basic
import Marketplace.Storage.Fault
import Marketplace.Table
set_option autoImplicit false

/-!
# The order book

All orders with their items, and the contacts of all buyers.  An item belongs to one order and
stands for one listing of the catalog.
-/

namespace Marketplace

/-- Orders, items and contacts, with the last identifiers given. -/
structure OrderBook where
  orders : Table OrderId Order
  items : Table OrderItemId OrderItem
  contacts : Table ContactId Contact
  lastOrder : Int
  lastItem : Int
  lastContact : Int
  deriving DecidableEq, Repr

namespace OrderBook

/-- A book without orders and contacts. -/
def empty : OrderBook := ⟨.empty, .empty, .empty, 0, 0, 0⟩

/-- The basket of a buyer. -/
def basket? (b : OrderBook) (buyer : UserId) : Option Order :=
  b.orders.values.find? fun o => o.buyer == buyer && o.isBasket

/-- The basket of a buyer, who gets one if there is none. -/
def getOrCreateBasket (b : OrderBook) (buyer : UserId) (now : Instant) : Order × OrderBook :=
  match b.basket? buyer with
  | some o => (o, b)
  | none =>
    let o := Order.newBasket ⟨b.lastOrder + 1⟩ buyer now
    (o, { b with orders := b.orders.insert o.id o, lastOrder := b.lastOrder + 1 })

/-- The items of an order. -/
def itemsOf (b : OrderBook) (order : OrderId) : List OrderItem :=
  b.items.values.filter fun i => i.order == order

/-- The rule that an item is at least one piece. -/
def quantityCheck : StorageFault := .check "order_items_quantity_check"

/-- Adds an item to an order; `isListed` says which listings there are. -/
def insertItem (b : OrderBook) (isListed : ListingId → Bool) (order : OrderId)
    (listing : ListingId) (shop : ShopId) (quantity : Int) :
    Except StorageFault (OrderItem × OrderBook) :=
  if quantity ≤ 0 then .error quantityCheck
  else if !b.orders.contains order then .error (.foreignKey "order_items_order_id_fkey")
  else if !isListed listing then .error (.foreignKey "order_items_listing_id_fkey")
  else
    let i : OrderItem := ⟨⟨b.lastItem + 1⟩, order, listing, shop, quantity⟩
    .ok (i, { b with items := b.items.insert i.id i, lastItem := b.lastItem + 1 })

/-- Changes the quantity of an item of the order; the answer says whether there is such an item. -/
def updateQuantity (b : OrderBook) (order : OrderId) (item : OrderItemId) (quantity : Int) :
    Except StorageFault (Bool × OrderBook) :=
  if quantity ≤ 0 then .error quantityCheck
  else
    match b.items.get? item with
    | some i =>
      if i.order == order then
        .ok (true, { b with items := b.items.insert item { i with quantity := quantity } })
      else .ok (false, b)
    | none => .ok (false, b)

/-- Deletes items of the order among those named; the answer is their number. -/
def deleteItems (b : OrderBook) (order : OrderId) (ids : List OrderItemId) : Nat × OrderBook :=
  let doomed := b.items.filter fun k i => i.order == order && ids.contains k
  (doomed.size, { b with items := b.items.filter fun k _ => !doomed.contains k })

/-- The number of items of an order. -/
def itemCount (b : OrderBook) (order : OrderId) : Nat := (b.itemsOf order).length

/-- Places an order for a contact; the answer says whether it was a basket. -/
def placeOrder (b : OrderBook) (order : OrderId) (contact : ContactId) :
    Except StorageFault (Bool × OrderBook) :=
  if !b.contacts.contains contact then .error (.foreignKey "orders_contact_id_fkey")
  else
    match b.orders.get? order with
    | none => .ok (false, b)
    | some o =>
      match o.place contact with
      | .ok placed => .ok (true, { b with orders := b.orders.insert order placed })
      | .error _ => .ok (false, b)

/-- Takes away the items whose listings are gone. -/
def dropUnlisted (b : OrderBook) (isListed : ListingId → Bool) : OrderBook :=
  { b with items := b.items.filter fun _ i => isListed i.listing }

/-- The order with the lines that `line?` makes of its items. -/
def detail (b : OrderBook) (line? : OrderItem → Option OrderLine) (o : Order)
    (items : List OrderItem) : OrderDetail :=
  .make o (items.filterMap line?) (o.contact.bind b.contacts.get?)

/-- The order of an identifier with all its lines. -/
def detail? (b : OrderBook) (line? : OrderItem → Option OrderLine) (id : OrderId) :
    Option OrderDetail :=
  (b.orders.get? id).map fun o => b.detail line? o (b.itemsOf id)

/-- Later orders come first, and of two with one time the one with the greater identifier. -/
def isNewer (a b : OrderDetail) : Bool :=
  b.order.createdAt.lt a.order.createdAt ||
    (a.order.createdAt == b.order.createdAt && b.order.id.le a.order.id)

/-- The placed orders of a buyer, newest first. -/
def ordersOfBuyer (b : OrderBook) (line? : OrderItem → Option OrderLine) (buyer : UserId) :
    List OrderDetail :=
  ((b.orders.values.filter fun o => o.buyer == buyer && !o.isBasket).map fun o =>
    b.detail line? o (b.itemsOf o.id)).mergeSort isNewer

/-- The placed orders with items of a shop, restricted to those items, newest first. -/
def ordersOfShop (b : OrderBook) (line? : OrderItem → Option OrderLine) (shop : ShopId) :
    List OrderDetail :=
  ((b.orders.values.filter fun o => !o.isBasket).filterMap fun o =>
    let items := (b.itemsOf o.id).filter fun i => i.shop == shop
    if items.isEmpty then none else some (b.detail line? o items)).mergeSort isNewer

/-- The contacts of a user. -/
def contactsOf (b : OrderBook) (user : UserId) : List Contact :=
  b.contacts.values.filter fun c => c.user == user

/-- A contact of a user. -/
def contact? (b : OrderBook) (user : UserId) (id : ContactId) : Option Contact :=
  (b.contacts.get? id).filter fun c => c.user == user

/-- Adds a contact of a user. -/
def insertContact (b : OrderBook) (user : UserId) (a : Address) : Contact × OrderBook :=
  let c : Contact := ⟨⟨b.lastContact + 1⟩, user, a⟩
  (c, { b with contacts := b.contacts.insert c.id c, lastContact := b.lastContact + 1 })

/-- Changes a contact of a user. -/
def updateContact (b : OrderBook) (user : UserId) (id : ContactId) (patch : AddressInput) :
    Option Contact × OrderBook :=
  match b.contact? user id with
  | none => (none, b)
  | some c =>
    let c := { c with address := patch.patch c.address }
    (some c, { b with contacts := b.contacts.insert id c })

/-- The user's contacts among those named. -/
def ownContacts (b : OrderBook) (user : UserId) (ids : List ContactId) : Table ContactId Contact :=
  b.contacts.filter fun k c => c.user == user && ids.contains k

/-- Takes contacts away. -/
def dropContacts (b : OrderBook) (doomed : Table ContactId Contact) : OrderBook :=
  { b with contacts := b.contacts.filter fun k _ => !doomed.contains k }

/-- Takes contacts off the orders that name them. -/
def clearContacts (b : OrderBook) (doomed : Table ContactId Contact) : OrderBook :=
  { b with orders := b.orders.mapValues fun _ o =>
      if o.contact.any doomed.contains then { o with contact := none } else o }

/-- Deletes the user's contacts among those named: first the contacts go, and then their mention in
orders.  The answer is their number. -/
def deleteContacts (b : OrderBook) (user : UserId) (ids : List ContactId) : Nat × OrderBook :=
  let doomed := b.ownContacts user ids
  (doomed.size, (b.dropContacts doomed).clearContacts doomed)

end OrderBook

end Marketplace
