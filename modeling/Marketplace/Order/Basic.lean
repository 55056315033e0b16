import Marketplace.Contact
import Marketplace.Order.Status
import Marketplace.Time.Instant
set_option autoImplicit false

/-!
# Orders

Orders, their stored items, and the lines that a reader sees.  Totals are exact as long as 64 bits
hold them and stop at the ends of that range.
-/

namespace Marketplace

/-- An order; as long as its status says so, a basket. -/
structure Order where
  id : OrderId
  buyer : UserId
  status : OrderStatus
  createdAt : Instant
  contact : Option ContactId
  deriving DecidableEq, Repr

namespace Order

/-- A new basket of a buyer. -/
def newBasket (id : OrderId) (buyer : UserId) (createdAt : Instant) : Order :=
  ⟨id, buyer, .basket, createdAt, none⟩

/-- The order has not been placed yet. -/
def isBasket (o : Order) : Bool := o.status == .basket

/-- There is no such order for this account: a foreign one is not told from a missing one. -/
def absent (id : OrderId) : Refusal := .notFound s!"order {id}"

/-- The order must be the buyer's. -/
def ensureOwnedBy (o : Order) (buyer : UserId) : Except Refusal Unit :=
  if o.buyer == buyer then .ok () else .error (absent o.id)

/-- The placed order, which goes to the contact. -/
def place (o : Order) (contact : ContactId) : Except Refusal Order :=
  (o.status.become .new).map fun s => { o with status := s, contact := some contact }

/-- The members of the JSON form. -/
def members (o : Order) : List (String × Json.Value) :=
  [("id", o.id.toJson), ("buyer", o.buyer.toJson), ("status", o.status.toJson),
    ("created_at", o.createdAt.toJson), ("contact_id", .ofOption Id.toJson o.contact)]

/-- The JSON form. -/
def toJson (o : Order) : Json.Value := .object o.members

/-- Reads the JSON form. -/
def decoder : Json.Decoder Order :=
  .record ⟨⟨0⟩, ⟨0⟩, .basket, ⟨0, 0⟩, none⟩ [
    .required "id" Id.decoder fun v o => { o with id := v },
    .required "buyer" Id.decoder fun v o => { o with buyer := v },
    .required "status" OrderStatus.decoder fun v o => { o with status := v },
    .required "created_at" Instant.decoder fun v o => { o with createdAt := v },
    .nullable "contact_id" Id.decoder fun v o => { o with contact := v }]

end Order

/-- A stored item of an order. -/
structure OrderItem where
  id : OrderItemId
  order : OrderId
  listing : ListingId
  shop : ShopId
  quantity : Int
  deriving DecidableEq, Repr

/-- The JSON form. -/
def OrderItem.toJson (i : OrderItem) : Json.Value :=
  .object [("id", i.id.toJson), ("order_id", i.order.toJson), ("listing_id", i.listing.toJson),
    ("shop_id", i.shop.toJson), ("quantity", .int i.quantity)]

/-- An item as a reader sees it, with the names and the price of its listing. -/
structure OrderLine where
  id : OrderItemId
  listing : ListingId
  shop : ShopId
  shopName : String
  productName : String
  model : String
  quantity : Int
  priceRrc : Int
  deriving DecidableEq, Repr

namespace OrderLine

/-- Quantity times price, kept within 64 bits. -/
def total (l : OrderLine) : Int := Text.IntegerRange.signed64.clamp (l.quantity * l.priceRrc)

/-- The JSON form. -/
def toJson (l : OrderLine) : Json.Value :=
  .object [("id", l.id.toJson), ("listing_id", l.listing.toJson), ("shop_id", l.shop.toJson),
    ("shop_name", .text l.shopName), ("product_name", .text l.productName),
    ("model", .text l.model), ("quantity", .int l.quantity), ("price_rrc", .int l.priceRrc)]

/-- Reads the JSON form. -/
def decoder : Json.Decoder OrderLine :=
  .record ⟨⟨0⟩, ⟨0⟩, ⟨0⟩, "", "", "", 0, 0⟩ [
    .required "id" Id.decoder fun v l => { l with id := v },
    .required "listing_id" Id.decoder fun v l => { l with listing := v },
    .required "shop_id" Id.decoder fun v l => { l with shop := v },
    .required "shop_name" .text fun v l => { l with shopName := v },
    .required "product_name" .text fun v l => { l with productName := v },
    .required "model" .text fun v l => { l with model := v },
    .required "quantity" (.integer .signed64) fun v l => { l with quantity := v },
    .required "price_rrc" (.integer .signed64) fun v l => { l with priceRrc := v }]

end OrderLine

/-- An order with its lines, its contact and the sum of its lines. -/
structure OrderDetail where
  order : Order
  lines : List OrderLine
  contact : Option Contact
  total : Int
  deriving DecidableEq, Repr

namespace OrderDetail

/-- The sum of the lines' totals, kept within 64 bits at every step. -/
def sum (lines : List OrderLine) : Int :=
  lines.foldl (fun acc l => Text.IntegerRange.signed64.clamp (acc + l.total)) 0

/-- The detail of an order. -/
def make (order : Order) (lines : List OrderLine) (contact : Option Contact) : OrderDetail :=
  ⟨order, lines, contact, sum lines⟩

/-- The shops that have lines in the order, ascending, each once. -/
def shops (d : OrderDetail) : List ShopId := Id.sorted (d.lines.map (·.shop))

/-- The JSON form: the members of the order stand beside the others. -/
def toJson (d : OrderDetail) : Json.Value :=
  .object (d.order.members ++ [("items", .array (d.lines.map OrderLine.toJson)),
    ("contact", .ofOption Contact.toJson d.contact), ("total", .int d.total)])

/-- What stands in the JSON form beside the members of the order. -/
structure Rest where
  lines : List OrderLine
  contact : Option Contact
  total : Int

/-- Reads the JSON form. -/
def decoder : Json.Decoder OrderDetail :=
  .embedding (⟨[], none, 0⟩ : Rest) [
    .required "items" (.list OrderLine.decoder) fun v r => { r with lines := v },
    .nullable "contact" Contact.decoder fun v r => { r with contact := v },
    .required "total" (.integer .signed64) fun v r => { r with total := v }]
    Order.decoder fun r o => ⟨o, r.lines, r.contact, r.total⟩

end OrderDetail

end Marketplace
