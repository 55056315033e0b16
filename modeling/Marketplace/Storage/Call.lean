import Marketplace.Storage.Store
set_option autoImplicit false

/-!
# Calls of the storage

What services ask the storage for.  Each call is one indivisible step of a `Store`; it has a name, a
type of results, and a store that is out of order answers it with a fault.
-/

namespace Marketplace

/-- Calls that concern the published catalog. -/
inductive CatalogCall
  | begin
  | shopByOwner (owner : UserId)
  | shop (id : ShopId)
  | setAccepting (shop : ShopId) (accepting : Bool)
  | listing (id : ListingId)
  | listings (filter : ListingFilter) (page : PageRequest)
  | categories (page : PageRequest)
  | acceptingShops (page : PageRequest)
  deriving Repr

/-- Calls that concern the draft of an import. -/
inductive DraftCall
  | shopByName (name : String)
  | shopByOwner (owner : UserId)
  | createShop (name : String) (owner : UserId)
  | categoryExists (id : CategoryId)
  | ensureCategory (category : DeclaredCategory)
  | linkCategory (category : CategoryId) (shop : ShopId)
  | deleteListings (shop : ShopId)
  | upsertProduct (name : String) (category : CategoryId)
  | insertListing (listing : ListingData)
  | upsertParameter (name : String)
  | insertParameter (listing : ListingId) (parameter : ParameterId) (value : String)
  | commit
  deriving Repr

/-- Calls that concern orders. -/
inductive OrderCall
  | basket (buyer : UserId)
  | order (id : OrderId)
  | insertItem (order : OrderId) (listing : ListingId) (shop : ShopId) (quantity : Int)
  | updateQuantity (order : OrderId) (item : OrderItemId) (quantity : Int)
  | deleteItems (order : OrderId) (items : List OrderItemId)
  | itemCount (order : OrderId)
  | place (order : OrderId) (contact : ContactId)
  | detail (order : OrderId)
  | ofBuyer (buyer : UserId)
  | ofShop (shop : ShopId)
  deriving Repr

/-- Calls that concern contacts. -/
inductive ContactCall
  | all (user : UserId)
  | one (user : UserId) (id : ContactId)
  | insert (user : UserId) (address : Address)
  | update (user : UserId) (id : ContactId) (patch : AddressInput)
  | delete (user : UserId) (ids : List ContactId)
  deriving Repr

namespace CatalogCall

/-- What the call answers. -/
abbrev Result : CatalogCall → Type
  | .begin => Unit
  | .shopByOwner _ | .shop _ | .setAccepting _ _ => Option Shop
  | .listing _ => Option ListingView
  | .listings _ _ => Page ListingView
  | .categories _ => Page Category
  | .acceptingShops _ => Page Shop

/-- What the call answers at a store, and the store afterwards; `none` if it has to wait. -/
def step (s : Store) : (c : CatalogCall) → Option (c.Result × Store)
  | .begin => s.begin?.map fun t => ((), t)
  | .shopByOwner owner => some (s.catalog.shopOf? owner, s)
  | .shop id => some (s.catalog.shops.get? id, s)
  | .setAccepting id accepting => s.setAccepting? id accepting
  | .listing id => some (s.catalog.listing? id, s)
  | .listings filter page => some (s.catalog.search filter page, s)
  | .categories page => some (.cut s.catalog.allCategories page, s)
  | .acceptingShops page => some (.cut s.catalog.acceptingShops page, s)

/-- The answer that there is nothing, for calls that have one. -/
def nothing? : (c : CatalogCall) → Option c.Result
  | .shopByOwner _ | .shop _ | .setAccepting _ _ => some none
  | .listing _ => some none
  | .begin | .listings _ _ | .categories _ | .acceptingShops _ => none

/-- The name of the call. -/
def name : CatalogCall → String
  | .begin => "begin"
  | .shopByOwner _ => "shop_by_owner"
  | .shop _ => "shop"
  | .setAccepting _ _ => "set_accepting_orders"
  | .listing _ => "listing"
  | .listings _ _ => "listings"
  | .categories _ => "categories"
  | .acceptingShops _ => "accepting_shops"

/-- The name of the first statement that the call sends to a database: pages are counted first. -/
def statement : CatalogCall → String
  | .listings _ _ => "count_listings"
  | .categories _ => "count_categories"
  | .acceptingShops _ => "count_shops"
  | c => c.name

end CatalogCall

namespace DraftCall

/-- What the call answers. -/
abbrev Result : DraftCall → Type
  | .shopByName _ | .shopByOwner _ => Option Shop
  | .createShop _ _ => Shop
  | .categoryExists _ => Bool
  | .ensureCategory _ | .linkCategory _ _ | .insertParameter _ _ _ | .commit => Unit
  | .deleteListings _ => Nat
  | .upsertProduct _ _ => ProductId
  | .insertListing _ => ListingId
  | .upsertParameter _ => ParameterId

/-- What the call answers at a store, and the store afterwards. -/
def step (s : Store) : (c : DraftCall) → Except StorageFault c.Result × Store
  | .shopByName name => (s.askDraft (·.shopNamed? name), s)
  | .shopByOwner owner => (s.askDraft (·.shopOf? owner), s)
  | .createShop name owner => s.edit (Draft.createShop name owner)
  | .categoryExists id => (s.askDraft (·.categories.contains id), s)
  | .ensureCategory category => s.edit (Draft.ensureCategory category)
  | .linkCategory category shop => s.edit (Draft.linkCategory category shop)
  | .deleteListings shop => s.edit (Draft.deleteListings shop)
  | .upsertProduct name category => s.edit (Draft.upsertProduct name category)
  | .insertListing listing => s.edit (Draft.insertListing listing)
  | .upsertParameter name => s.edit (Draft.upsertParameter name)
  | .insertParameter listing parameter value =>
    s.edit (Draft.insertParameter listing parameter value)
  | .commit =>
    match s.draft with
    | none => (.error Store.noDraft, s)
    | some _ => (.ok (), s.commit)

/-- The answer that there is nothing, for calls that have one. -/
def nothing? : (c : DraftCall) → Option c.Result
  | .shopByName _ | .shopByOwner _ => some none
  | .categoryExists _ => some false
  | .deleteListings _ => some (0 : Nat)
  | .createShop _ _ | .ensureCategory _ | .linkCategory _ _ | .upsertProduct _ _
  | .insertListing _ | .upsertParameter _ | .insertParameter _ _ _ | .commit => none

/-- The name of the call, which its statement to a database has too. -/
def name : DraftCall → String
  | .shopByName _ => "shop_by_name"
  | .shopByOwner _ => "shop_by_owner"
  | .createShop _ _ => "create_shop"
  | .categoryExists _ => "category_exists"
  | .ensureCategory _ => "ensure_category"
  | .linkCategory _ _ => "link_category"
  | .deleteListings _ => "delete_listings"
  | .upsertProduct _ _ => "upsert_product"
  | .insertListing _ => "insert_listing"
  | .upsertParameter _ => "upsert_parameter"
  | .insertParameter _ _ _ => "insert_listing_parameter"
  | .commit => "commit"

end DraftCall

namespace OrderCall

/-- What the call answers. -/
abbrev Result : OrderCall → Type
  | .basket _ => Order
  | .order _ => Option Order
  | .insertItem _ _ _ _ => OrderItem
  | .updateQuantity _ _ _ | .place _ _ => Bool
  | .deleteItems _ _ | .itemCount _ => Nat
  | .detail _ => Option OrderDetail
  | .ofBuyer _ | .ofShop _ => List OrderDetail

/-- What the call answers at a store and a time, and the store afterwards. -/
def step (s : Store) (now : Instant) : (c : OrderCall) → Except StorageFault c.Result × Store
  | .basket buyer =>
    let (o, s) := s.onBook (·.getOrCreateBasket buyer now)
    (.ok o, s)
  | .order id => (.ok (s.book.orders.get? id), s)
  | .insertItem id listing shop quantity =>
    s.tryBook (·.insertItem s.catalog.listings.contains id listing shop quantity)
  | .updateQuantity id item quantity => s.tryBook (·.updateQuantity id item quantity)
  | .deleteItems id items =>
    let (n, s) := s.onBook (·.deleteItems id items)
    (.ok n, s)
  | .itemCount id => (.ok (s.book.itemCount id), s)
  | .place id contact => s.tryBook (·.placeOrder id contact)
  | .detail id => (.ok (s.book.detail? (Store.line? s.catalog) id), s)
  | .ofBuyer buyer => (.ok (s.book.ordersOfBuyer (Store.line? s.catalog) buyer), s)
  | .ofShop shop => (.ok (s.book.ordersOfShop (Store.line? s.catalog) shop), s)

/-- The answer that there is nothing, for calls that have one. -/
def nothing? : (c : OrderCall) → Option c.Result
  | .order _ => some none
  | .detail _ => some none
  | .updateQuantity _ _ _ | .place _ _ => some false
  | .deleteItems _ _ | .itemCount _ => some (0 : Nat)
  | .ofBuyer _ | .ofShop _ => some []
  | .basket _ | .insertItem _ _ _ _ => none

/-- The name of the call. -/
def name : OrderCall → String
  | .basket _ => "get_or_create_basket"
  | .order _ => "order"
  | .insertItem _ _ _ _ => "insert_item"
  | .updateQuantity _ _ _ => "update_item_quantity"
  | .deleteItems _ _ => "delete_items"
  | .itemCount _ => "item_count"
  | .place _ _ => "place_order"
  | .detail _ => "order_detail"
  | .ofBuyer _ => "buyer_orders"
  | .ofShop _ => "shop_orders"

/-- The name of the first statement that the call sends to a database. -/
def statement : OrderCall → String
  | .basket _ => "create_basket"
  | .detail _ => "order"
  | c => c.name

end OrderCall

namespace ContactCall

/-- What the call answers. -/
abbrev Result : ContactCall → Type
  | .all _ => List Contact
  | .one _ _ | .update _ _ _ => Option Contact
  | .insert _ _ => Contact
  | .delete _ _ => Nat

/-- What the call answers at a store, and the store afterwards. -/
def step (s : Store) : (c : ContactCall) → c.Result × Store
  | .all user => (s.book.contactsOf user, s)
  | .one user id => (s.book.contact? user id, s)
  | .insert user address => s.onBook (·.insertContact user address)
  | .update user id patch => s.onBook (·.updateContact user id patch)
  | .delete user ids => s.onBook (·.deleteContacts user ids)

/-- The answer that there is nothing, for calls that have one. -/
def nothing? : (c : ContactCall) → Option c.Result
  | .all _ => some []
  | .one _ _ | .update _ _ _ => some none
  | .delete _ _ => some (0 : Nat)
  | .insert _ _ => none

/-- The name of the call. -/
def name : ContactCall → String
  | .all _ => "contacts"
  | .one _ _ => "contact"
  | .insert _ _ => "insert_contact"
  | .update _ _ _ => "update_contact"
  | .delete _ _ => "delete_contacts"

/-- The name of the first statement that the call sends to a database: a change begins a
transaction. -/
def statement : ContactCall → String
  | .one _ _ => "contact_by_id"
  | .update _ _ _ => "begin"
  | c => c.name

end ContactCall

/-- A call of the storage. -/
inductive StoreCall
  | catalog (c : CatalogCall)
  | draft (c : DraftCall)
  | orders (c : OrderCall)
  | contacts (c : ContactCall)
  deriving Repr

namespace StoreCall

/-- What the call answers. -/
abbrev Result : StoreCall → Type
  | .catalog c => c.Result
  | .draft c => c.Result
  | .orders c => c.Result
  | .contacts c => c.Result

/-- What the call answers at a store and a time, and the store afterwards; `none` if it has to
wait. -/
def step (s : Store) (now : Instant) :
    (c : StoreCall) → Option (Except StorageFault c.Result × Store)
  | .catalog c => (c.step s).map fun r => (.ok r.1, r.2)
  | .draft c => some (c.step s)
  | .orders c => some (c.step s now)
  | .contacts c =>
    let (r, s) := c.step s
    some (.ok r, s)

/-- The answer that there is nothing, for calls that have one. -/
def nothing? : (c : StoreCall) → Option c.Result
  | .catalog c => c.nothing?
  | .draft c => c.nothing?
  | .orders c => c.nothing?
  | .contacts c => c.nothing?

/-- The name of the call; those of drafts are told from the others. -/
def name : StoreCall → String
  | .catalog c => c.name
  | .draft c => "tx." ++ c.name
  | .orders c => c.name
  | .contacts c => c.name

/-- The name of the first statement that the call sends to a database. -/
def statement : StoreCall → String
  | .catalog c => c.statement
  | .draft c => c.name
  | .orders c => c.statement
  | .contacts c => c.statement

end StoreCall

namespace StorageFault

/-- The fault of a database whose connections have been given up, at the statement of a name. -/
def closed (statement : String) : StorageFault :=
  .backend s!"connection pool closed in {statement}"

/-- The fault of a database that cannot be reached at all, because its address is none. -/
def unreachable (reason : String) : StorageFault :=
  .backend s!"sqlx error in connect: {reason}"

end StorageFault

end Marketplace
