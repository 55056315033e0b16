import Marketplace.Catalog.Basic
import Marketplace.Page
import Marketplace.Text.Lowercase
set_option autoImplicit false

/-!
# Searching the catalog

Which listings a visitor wants to see.  Conditions on text hold when the text occurs in lower case;
all given conditions must hold.  `ListingQuery` is a filter and a page as they come in, in texts.
-/

namespace Marketplace

open Json (Value Decoder)

/-- The conditions on a listing; a missing one always holds. -/
structure ListingFilter where
  model : Option String
  externalId : Option Int
  category : Option CategoryId
  shop : Option ShopId
  search : Option String
  deriving DecidableEq, Repr

namespace ListingFilter

/-- The filter that every listing passes. -/
def all : ListingFilter := ⟨none, none, none, none, none⟩

/-- The filter with trimmed texts and without those that are blank. -/
def normalize (f : ListingFilter) : ListingFilter :=
  { f with model := f.model.bind Text.nonBlank?, search := f.search.bind Text.nonBlank? }

/-- The listing passes every condition. -/
def accepts (f : ListingFilter) (l : ListingView) : Bool :=
  f.model.all (Text.containsFolded l.model) &&
  f.externalId.all (l.externalId == ·) &&
  f.category.all (l.category == ·) &&
  f.shop.all (l.shop.id == ·) &&
  f.search.all fun s => Text.containsFolded l.model s || Text.containsFolded l.productName s

/-- The JSON form. -/
def toJson (f : ListingFilter) : Value :=
  .object [("model", .ofOption .text f.model), ("external_id", .ofOption .int f.externalId),
    ("category_id", .ofOption Id.toJson f.category), ("shop_id", .ofOption Id.toJson f.shop),
    ("search", .ofOption .text f.search)]

/-- Reads the JSON form. -/
def decoder : Decoder ListingFilter :=
  .record ⟨none, none, none, none, none⟩ [
    .nullable "model" .text fun v f => { f with model := v },
    .nullable "external_id" (.integer .signed64) fun v f => { f with externalId := v },
    .nullable "category_id" Id.decoder fun v f => { f with category := v },
    .nullable "shop_id" Id.decoder fun v f => { f with shop := v },
    .nullable "search" .text fun v f => { f with search := v }]

end ListingFilter

/-- An integer that may be left out or blank. -/
def integerParameter (name : String) (r : Text.IntegerRange) (raw : Option String) :
    Except Refusal (Option Int) :=
  match raw.bind Text.nonBlank? with
  | none => .ok none
  | some s =>
    match Text.readInteger r s with
    | .ok n => .ok (some n)
    | .error _ => .error (.invalidArguments s!"{name}: must be an integer")

/-- The page of a query, in texts. -/
structure PageQuery where
  page : Option String
  size : Option String
  deriving DecidableEq, Repr

namespace PageQuery

/-- The query that asks for no page in particular. -/
def blank : PageQuery := ⟨none, none⟩

/-- The page that is asked for. -/
def request (q : PageQuery) : Except Refusal PageRequest := do
  let page ← integerParameter "page" (.unsigned 32) q.page
  let size ← integerParameter "page_size" (.unsigned 32) q.size
  return .ofOptions (page.map Int.toNat) (size.map Int.toNat)

/-- The members of the query. -/
def fields : List (Decoder.Field PageQuery) := [
  .nullable "page" .text fun v q => { q with page := v },
  .nullable "page_size" .text fun v q => { q with size := v }]

/-- Reads the query. -/
def decoder : Decoder PageQuery := .record blank fields

end PageQuery

/-- A filter and a page, in texts. -/
structure ListingQuery where
  model : Option String
  externalId : Option String
  category : Option String
  shop : Option String
  search : Option String
  page : PageQuery
  deriving DecidableEq, Repr

namespace ListingQuery

/-- The query without conditions. -/
def blank : ListingQuery := ⟨none, none, none, none, none, .blank⟩

/-- The filter and the page that are asked for; the first parameter that is no integer decides
the refusal. -/
def read (q : ListingQuery) : Except Refusal (ListingFilter × PageRequest) := do
  let externalId ← integerParameter "external_id" .signed64 q.externalId
  let category ← integerParameter "category_id" .signed64 q.category
  let shop ← integerParameter "shop_id" .signed64 q.shop
  let page ← q.page.request
  return (⟨q.model, externalId, category.map Id.mk, shop.map Id.mk, q.search⟩, page)

/-- The members of the query beside those of its page. -/
def fields : List (Decoder.Field ListingQuery) := [
  .nullable "model" .text fun v q => { q with model := v },
  .nullable "external_id" .text fun v q => { q with externalId := v },
  (Decoder.Field.nullable "category_id" .text fun v q => { q with category := v }).orNamed
    "category",
  (Decoder.Field.nullable "shop_id" .text fun v q => { q with shop := v }).orNamed "shop",
  .nullable "search" .text fun v q => { q with search := v }]

/-- Reads the query. -/
def decoder : Decoder ListingQuery :=
  .embedding blank fields PageQuery.decoder fun q p => { q with page := p }

end ListingQuery

end Marketplace
