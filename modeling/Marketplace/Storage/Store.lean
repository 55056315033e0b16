import Marketplace.Account.Basic
import Marketplace.Catalog.Draft
import Marketplace.Order.Book
set_option autoImplicit false

/-!
# The store

The published catalog, the draft of an import that is under way, the order book, and the accounts
that have been seen.  There is one draft at most: whoever wants to change the catalog has to wait as
long as there is one, and `none` says so.
-/

namespace Marketplace

/-- All that is stored. -/
structure Store where
  /-- The catalog that everybody sees. -/
  catalog : Catalog
  /-- The catalog that an import works on. -/
  draft : Option Catalog
  counters : CatalogCounters
  book : OrderBook
  accounts : Table UserId Account
  deriving DecidableEq, Repr

namespace Store

/-- A store without anything. -/
def empty : Store := ⟨.empty, none, .start, .empty, .empty⟩

/-- Opens a draft of the published catalog. -/
def begin? (s : Store) : Option Store :=
  match s.draft with
  | some _ => none
  | none => some { s with draft := some s.catalog }

/-- What a change of a draft answers where no draft is open. -/
def noDraft : StorageFault := .backend "no import is under way"

/-- Changes the draft. -/
def edit {α : Type} (s : Store) (e : Edit α) : Except StorageFault α × Store :=
  match s.draft with
  | none => (.error noDraft, s)
  | some c =>
    match e ⟨c, s.counters⟩ with
    | .error f => (.error f, s)
    | .ok (a, d) => (.ok a, { s with draft := some d.catalog, counters := d.counters })

/-- Asks the draft. -/
def askDraft {α : Type} (s : Store) (f : Catalog → α) : Except StorageFault α :=
  match s.draft with
  | none => .error noDraft
  | some c => .ok (f c)

/-- Shows the draft to everybody. -/
def publish (s : Store) : Store :=
  match s.draft with
  | none => s
  | some c => { s with catalog := c }

/-- Takes the order items away whose listings are gone. -/
def cascade (s : Store) : Store :=
  { s with book := s.book.dropUnlisted s.catalog.listings.contains }

/-- Gives the draft up. -/
def discard (s : Store) : Store := { s with draft := none }

/-- Publishes the draft; order items that stood for replaced listings go with them. -/
def commit (s : Store) : Store := s.publish.cascade.discard

/-- Opens or closes a shop for orders; the answer is the changed shop. -/
def setAccepting? (s : Store) (shop : ShopId) (accepting : Bool) : Option (Option Shop × Store) :=
  match s.draft with
  | some _ => none
  | none =>
    let shops := s.catalog.shops.modify shop fun r => { r with acceptingOrders := accepting }
    some (shops.get? shop, { s with catalog := { s.catalog with shops := shops } })

/-- The line that a reader sees for an item, if the catalog still has what it stands for. -/
def line? (c : Catalog) (i : OrderItem) : Option OrderLine :=
  (c.listings.get? i.listing).bind fun l =>
    (c.products.get? l.product).bind fun p =>
      (c.shops.get? i.shop).map fun s =>
        ⟨i.id, i.listing, i.shop, s.name, p.name, l.model, i.quantity, l.priceRrc⟩

/-- Changes the order book by a function that also answers. -/
def onBook {α : Type} (s : Store) (f : OrderBook → α × OrderBook) : α × Store :=
  let (a, b) := f s.book
  (a, { s with book := b })

/-- Changes the order book by a function that may refuse to. -/
def tryBook {α : Type} (s : Store) (f : OrderBook → Except StorageFault (α × OrderBook)) :
    Except StorageFault α × Store :=
  match f s.book with
  | .error e => (.error e, s)
  | .ok (a, b) => (.ok a, { s with book := b })

/-- Remembers what an account is like now. -/
def remember (s : Store) (a : Account) : Store :=
  { s with accounts := s.accounts.insert a.id a }

end Store

end Marketplace
