import Marketplace.Http.Message
set_option autoImplicit false

/-!
# Routes

Which paths there are, what their methods do, and which of them need a bearer token.  A path is
compared segment by segment as it was sent; a segment that stands for an identifier must not be
empty.
-/

namespace Marketplace

/-- What a request can ask for; identifiers are still as they were sent. -/
inductive Endpoint
  | health
  | searchListings
  | listing (id : String)
  | categories
  | shops
  | whoAmI
  | submitImport
  | importStatus (job : String)
  | ownShop
  | toggleShop
  | shopOrders
  | basket
  | addItems
  | updateItems
  | removeItems
  | placedOrders
  | checkout
  | order (id : String)
  | job (id : String)
  | retryJob (id : String)
  | contacts
  | createContact
  | updateContact
  | deleteContacts
  deriving DecidableEq, Repr

/-- A path with its methods. -/
structure Route where
  needsToken : Bool
  methods : List (HttpMethod × Endpoint)
  deriving Repr

namespace Route

/-- A path that anyone may ask for. -/
def unguarded (methods : List (HttpMethod × Endpoint)) : Route := ⟨false, methods⟩

/-- A path that needs a token. -/
def guarded (methods : List (HttpMethod × Endpoint)) : Route := ⟨true, methods⟩

/-- The route of a path, by its segments. -/
def ofSegments? : List String → Option Route
  | ["health"] => some (.unguarded [(.get, .health)])
  | ["products"] => some (.unguarded [(.get, .searchListings)])
  | ["products", id] => if id = "" then none else some (.unguarded [(.get, .listing id)])
  | ["categories"] => some (.unguarded [(.get, .categories)])
  | ["shops"] => some (.unguarded [(.get, .shops)])
  | ["whoami"] => some (.guarded [(.get, .whoAmI)])
  | ["partner", "update"] => some (.guarded [(.post, .submitImport)])
  | ["partner", "update", id] =>
    if id = "" then none else some (.guarded [(.get, .importStatus id)])
  | ["partner", "state"] => some (.guarded [(.get, .ownShop), (.post, .toggleShop)])
  | ["partner", "orders"] => some (.guarded [(.get, .shopOrders)])
  | ["basket"] =>
    some (.guarded [(.get, .basket), (.post, .addItems), (.put, .updateItems),
      (.delete, .removeItems)])
  | ["order"] => some (.guarded [(.get, .placedOrders), (.post, .checkout)])
  | ["order", id] => if id = "" then none else some (.guarded [(.get, .order id)])
  | ["jobs", id] => if id = "" then none else some (.guarded [(.get, .job id)])
  | ["jobs", id, "retry"] => if id = "" then none else some (.guarded [(.post, .retryJob id)])
  | ["user", "contact"] =>
    some (.guarded [(.get, .contacts), (.post, .createContact), (.put, .updateContact),
      (.delete, .deleteContacts)])
  | _ => none

/-- The route of a path. -/
def find? (path : String) : Option Route :=
  match path.toList.splitOn '/' with
  | [] :: segments => ofSegments? (segments.map String.ofList)
  | _ => none

/-- What a method does; asking for the head of an answer is asking for the answer. -/
def endpoint? (r : Route) (m : HttpMethod) : Option Endpoint :=
  r.methods.lookup (if m = .head then .get else m)

end Route

end Marketplace
