import Marketplace.PriceList.Document
import Marketplace.PriceList.Source
import Marketplace.Service.Basic
set_option autoImplicit false

/-!
# Importing price lists

An import reads a price list, checks it against the catalog, and puts it into the catalog in one
draft: it finds or adds the shop, adds and links categories, deletes the shop's listings, and adds
the listings of the list.  Whatever goes wrong, the draft is given up and nobody sees anything of
it.
-/

namespace Marketplace

/-- Why an import fails. -/
inductive ImportFault
  /-- There is no such file. -/
  | notFound (path : String)
  /-- The text is no price list. -/
  | unreadable (reason : String)
  /-- The shop belongs to somebody else. -/
  | permissionDenied (reason : String)
  /-- The account has another shop. -/
  | ownershipConflict (reason : String)
  /-- The price list is not acceptable. -/
  | invalidArguments (reason : String)
  /-- Something else has failed. -/
  | failed (cause : Refusal)
  deriving DecidableEq, Repr

namespace ImportFault

/-- The name of the kind of fault. -/
def label : ImportFault → String
  | .notFound _ => "not_found"
  | .unreadable _ => "parse"
  | .permissionDenied _ => "permission_denied"
  | .ownershipConflict _ => "ownership_conflict"
  | .invalidArguments _ => "invalid_arguments"
  | .failed _ => "failed"

/-- The fault in words. -/
def message : ImportFault → String
  | .notFound path => s!"price list not found: {path}"
  | .unreadable reason => s!"parse error: {reason}"
  | .permissionDenied reason => s!"permission denied: {reason}"
  | .ownershipConflict reason => s!"ownership conflict: {reason}"
  | .invalidArguments reason => s!"invalid arguments: {reason}"
  | .failed cause => s!"import failed: {cause.message}"

/-- The same import may succeed at another time. -/
def isTransient : ImportFault → Bool
  | .failed cause => cause.isTransient
  | _ => false

/-- The refusal that comes of the fault. -/
def refusal : ImportFault → Refusal
  | .notFound path => .notFound path
  | .unreadable reason => .unreadable reason
  | .permissionDenied reason => .permissionDenied reason
  | .ownershipConflict reason => .ownershipConflict reason
  | .invalidArguments reason => .invalidArguments reason
  | .failed cause => cause

/-- The fault that comes of one of the storage. -/
def ofStorage (f : StorageFault) : ImportFault := .failed f.refusal

/-- The fault that comes of one of the price list. -/
def ofPriceList : PriceListFault → ImportFault
  | .malformed reason => .unreadable reason
  | .invalid reason => .invalidArguments reason

end ImportFault

/-- A program that imports or fails. -/
abbrev Importer (α : Type) := ExceptT ImportFault Program α

namespace Importer

variable {α : Type}

/-- Calls the storage about the draft; faults become those that `f` makes of them. -/
def draftOr (f : StorageFault → ImportFault) (c : DraftCall) : Importer c.Result :=
  ExceptT.mk ((Program.ask (.store (.draft c))).bind fun r => .done (r.mapError f))

/-- Calls the storage about the draft. -/
def draft (c : DraftCall) : Importer c.Result := draftOr .ofStorage c

/-- Works in a draft, which is given up if the work fails. -/
def inDraft (x : Importer α) : Importer α :=
  ExceptT.mk do
    match ← Program.ask (.store (.catalog .begin)) with
    | .error f => pure (.error (.ofStorage f))
    | .ok () =>
      match ← x.run with
      | .ok a => pure (.ok a)
      | .error e =>
        Program.ask .discard
        pure (.error e)

/-- The text of a price list. -/
def load : PriceListSource → Importer String
  | .document text => pure text
  | .path path =>
    ExceptT.mk ((Program.ask (.read path)).bind fun r => .done (r.mapError fun
      | .missing => .notFound path
      | .unreadable detail => .failed (.storage s!"reading {path}: {detail}")))

/-- The shop of the name belongs to somebody else. -/
def foreignShop (name : String) : ImportFault :=
  .permissionDenied s!"shop '{name}' belongs to another account"

/-- The fault of adding a shop whose name or owner has been taken in the meantime. -/
def shopConflict (name : String) (user : UserId) (f : StorageFault) : ImportFault :=
  if f = .unique StorageFault.shopOwner then
    .ownershipConflict s!"account {user} already owns a shop"
  else if f = .unique StorageFault.shopName then foreignShop name
  else .ofStorage f

/-- The user's shop of the name, and whether it has been added. -/
def resolveShop (name : String) (user : UserId) : Importer (Shop × Bool) := do
  match ← draft (.shopByName name) with
  | some shop =>
    if shop.owner = user then pure (shop, false) else throw (foreignShop shop.name)
  | none =>
    match ← draft (.shopByOwner user) with
    | some owned =>
      throw (.ownershipConflict s!"account {user} already owns shop '{owned.name}'")
    | none =>
      let shop ← draftOr (shopConflict name user) (.createShop name user)
      pure (shop, true)

/-- Every category must be known. -/
def requireCategories : List CategoryId → Importer Unit
  | [] => pure ()
  | c :: cs => do
    if ← draft (.categoryExists c) then requireCategories cs
    else
      throw (.invalidArguments s!"category {c} is neither declared in the price list nor known")

/-- Adds categories where they are missing, and links them to the shop. -/
def declareCategories (shop : ShopId) : List DeclaredCategory → Importer Unit
  | [] => pure ()
  | c :: cs => do
    draft (.ensureCategory c)
    draft (.linkCategory c.id shop)
    declareCategories shop cs

/-- Links categories to the shop. -/
def linkCategories (shop : ShopId) : List CategoryId → Importer Unit
  | [] => pure ()
  | c :: cs => do
    draft (.linkCategory c shop)
    linkCategories shop cs

/-- Gives a listing its parameters. -/
def insertParameters (listing : ListingId) : List ParameterEntry → Importer Unit
  | [] => pure ()
  | (name, value) :: ps => do
    let parameter ← draft (.upsertParameter name)
    draft (.insertParameter listing parameter value)
    insertParameters listing ps

/-- Adds a listing for a good. -/
def insertGood (shop : ShopId) (g : Good) : Importer Unit := do
  let product ← draft (.upsertProduct (Text.trim g.name) g.category)
  let listing ← draft (.insertListing
    ⟨product, shop, g.model, g.externalId, g.quantity, g.price, g.priceRrc⟩)
  insertParameters listing g.parameters

/-- Adds listings for goods. -/
def insertGoods (shop : ShopId) : List Good → Importer Unit
  | [] => pure ()
  | g :: gs => do
    insertGood shop g
    insertGoods shop gs

/-- Puts a price list into the draft, and shows the draft to everybody. -/
def merge (list : PriceList) (user : UserId) : Importer ImportSummary := do
  let (shop, created) ← resolveShop (Text.trim list.shop) user
  requireCategories list.undeclared
  declareCategories shop.id list.categories
  linkCategories shop.id list.undeclared
  let _ ← draft (.deleteListings shop.id)
  insertGoods shop.id list.goods
  draft .commit
  pure ⟨shop.id, created, list.categories.length, list.goods.length,
    list.goods.foldr (fun g n => g.parameters.length + n) 0⟩

/-- Puts a price list into the catalog. -/
def apply (list : PriceList) (user : UserId) : Importer ImportSummary := inDraft (merge list user)

/-- Reads a price list and puts it into the catalog. -/
def importFrom (source : PriceListSource) (user : UserId) : Importer ImportSummary := do
  let text ← load source
  match PriceList.ofText text with
  | .error f => throw (.ofPriceList f)
  | .ok list => apply list user

end Importer

end Marketplace
