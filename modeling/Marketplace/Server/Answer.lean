import Marketplace.Account.Token
import Marketplace.Catalog.Filter
import Marketplace.Contact.Request
import Marketplace.Http.Encoding
import Marketplace.Http.MediaType
import Marketplace.PriceList.Source
import Marketplace.Server.Route
import Marketplace.Service.Contacts
import Marketplace.Service.Orders
import Marketplace.Service.Search
set_option autoImplicit false

/-!
# Answers to requests

A request is answered by a program.  A request of a guarded path, and one of a path that does not
exist, has to bring a good bearer token, and the account that it speaks for is remembered.  What
cannot be done is answered too, with the kind of the refusal and its detail.
-/

namespace Marketplace

open Json (Value Decoder)

/-- A program that answers a request; what ends it early is an answer as well. -/
abbrev Answering (α : Type) := ExceptT HttpResponse Program α

namespace Answering

variable {α : Type}

/-- A service; its refusals are answers. -/
def ofService (x : Service α) : Answering α :=
  ExceptT.mk (Program.bind x.run fun r => .done (r.mapError HttpResponse.ofRefusal))

/-- A service of jobs. -/
def ofJobs (x : JobService α) : Answering α := ofService x.toService

/-- What has been decided already. -/
def ofExcept (x : Except Refusal α) : Answering α := ofService (Service.ofExcept x)

/-- The answer to a request without a good token. -/
def unauthorized : HttpResponse :=
  .json 401 (.object [("status", .bool false), ("error", .text "unauthorized"),
    ("message", .text "missing or invalid bearer token")])

/-- The token of an authorization.  An authorization that is not visible throughout has none, even
where the part that could be a token is. -/
def bearerToken? (authorization : HeaderValue) : Option String := do
  let text ← authorization.text?
  if text.startsWith "Bearer " then Text.nonBlank? (String.ofList (text.toList.drop 7)) else none

/-- The account that a good token of the request speaks for, which is remembered. -/
def signIn (secret : String) (r : HttpRequest) : Answering Account := do
  match r.authorization.bind bearerToken? with
  | none => throw unauthorized
  | some token =>
    let now ← ofService (Service.ask .now)
    match Token.validate secret token now with
    | .error _ => throw unauthorized
    | .ok claims =>
      ofService (Service.remember claims.account)
      return claims.account

/-- The greatest number of bytes that a body may have. -/
def maxBodySize : Nat := 2097152

/-- Reads the body of a request; what follows the JSON value is left aside. -/
def body (d : Decoder α) (r : HttpRequest) : Answering α :=
  ofExcept (
    if ((r.contentType.bind HeaderValue.text?).bind MediaType.parse?).any MediaType.isJson then
      if maxBodySize < r.body.octets.length then
        .error (.invalidArguments "Failed to buffer the request body: length limit exceeded")
      else match d.runHead r.body.text with
      | .ok a => .ok a
      | .error .malformed =>
        .error (.invalidArguments "Failed to parse the request body as JSON")
      | .error _ =>
        .error (.invalidArguments "Failed to deserialize the JSON body into the target type")
    else .error (.invalidArguments "Expected request with \x60Content-Type: application/json\x60"))

/-- Reads the query of a request, in which a known name may stand once. -/
def query (d : Decoder α) (r : HttpRequest) : Answering α :=
  match d.ofTree (.object ((Http.queryPairs r.query).map fun p => (p.1, .text p.2))) with
  | some a => pure a
  | none => throw ⟨400, .text "Failed to deserialize query string"⟩

/-- Reads a segment of the path. -/
def segment (name raw : String) : Answering String :=
  match Http.segmentText? raw with
  | some s => pure s
  | none => throw ⟨400, .text s!"Invalid URL: Invalid UTF-8 in \x60{name}\x60"⟩

/-- Reads a segment that is an identifier. -/
def identifier (kind : IdKind) (raw : String) : Answering (Id kind) := do
  ofExcept (Id.parse kind (← segment "id" raw))

/-- Reads a segment that identifies a job. -/
def jobId (name raw : String) : Answering JobId := do
  match JobId.parse? (← segment name raw) with
  | some id => return id
  | none => ofExcept (.error (.invalidArguments "job_id: must be a UUID"))

/-- The answer that all is well, with what was asked for. -/
def success (status : Nat) (members : List (String × Value)) : HttpResponse :=
  .json status (.object (("status", .bool true) :: members))

/-- The answer that carries the result of a service. -/
def carrying (name : String) (toJson : α → Value) (x : Answering α) : Answering HttpResponse := do
  return success 200 [(name, toJson (← x))]

/-- A list of JSON forms. -/
def each (toJson : α → Value) (as : List α) : Value := .array (as.map toJson)

/-- Submits the import of a price list for a shop. -/
def submitImport (a : Account) (r : HttpRequest) : Answering HttpResponse := do
  let request ← body ImportRequest.decoder r
  ofExcept a.requireShop
  let source ← ofExcept request.source
  let job ← ofService (ExceptT.lift (JobService.create a.id (.importPriceList source a.id)))
  return success 202 [("job_id", JobId.toJson (← ofJobs (JobService.submit job)))]

/-- A job of the account, if it is an import. -/
def importJob (a : Account) (id : JobId) : Answering Job := do
  let job ← ofJobs (JobService.status a.id id)
  if job.kind = .importPriceList then return job
  else ofExcept (.error (.notFound s!"import job {id}"))

/-- Adds entries to the basket. -/
def addItems (a : Account) (r : HttpRequest) : Answering HttpResponse := do
  let request ← body AddRequest.decoder r
  let inputs ← ofExcept request.entries
  let items ← ofService (Orders.add a.id inputs)
  return success 200 [("created", .nat items.length), ("items", each OrderItem.toJson items)]

/-- Places the basket. -/
def checkout (a : Account) (r : HttpRequest) : Answering HttpResponse := do
  let request ← body CheckoutRequest.decoder r
  let (order, contact) ← ofExcept request.check
  let outcome ← ofService (Orders.checkout a.id order contact)
  return success 200 [("order", outcome.order.toJson),
    ("notification_job", .ofOption JobId.toJson outcome.notification)]

/-- Does for an account what it asks for. -/
def ofAccount (a : Account) (r : HttpRequest) : Endpoint → Answering HttpResponse
  | .whoAmI =>
    return success 200 [("user_id", a.id.toJson), ("email", .text a.email),
      ("account_type", a.type.toJson)]
  | .submitImport => submitImport a r
  | .importStatus raw => carrying "job" Job.view (do importJob a (← jobId "job_id" raw))
  | .ownShop => carrying "shop" Shop.toJson (ofService (Shops.own a))
  | .toggleShop => carrying "shop" Shop.toJson (ofService (Shops.toggle a))
  | .shopOrders => carrying "orders" (each OrderDetail.toJson) (ofService (Orders.ofShop a))
  | .basket => carrying "basket" OrderDetail.toJson (ofService (Orders.basket a.id))
  | .addItems => addItems a r
  | .updateItems =>
    carrying "updated" .nat (do
      let request ← body UpdateRequest.decoder r
      ofService (Orders.update a.id (← ofExcept request.entries)))
  | .removeItems =>
    carrying "deleted" .nat (do
      let request ← body RemoveRequest.decoder r
      ofService (Orders.remove a.id (← ofExcept (request.ids .orderItem))))
  | .placedOrders => carrying "orders" (each OrderDetail.toJson) (ofService (Orders.ofBuyer a.id))
  | .checkout => checkout a r
  | .order raw =>
    carrying "order" OrderDetail.toJson (do
      ofService (Orders.get a.id (← identifier .order raw)))
  | .job raw => carrying "job" Job.view (do ofJobs (JobService.status a.id (← jobId "id" raw)))
  | .retryJob raw => carrying "job" Job.view (do ofJobs (JobService.retry a.id (← jobId "id" raw)))
  | .contacts => carrying "contacts" (each Contact.toJson) (ofService (Contacts.list a.id))
  | .createContact => do
    let draft ← body AddressInput.decoder r
    return success 201 [("contact", (← ofService (Contacts.create a.id draft)).toJson)]
  | .updateContact =>
    carrying "contact" Contact.toJson (do
      let change ← body ContactChange.decoder r
      ofService (Contacts.update a.id (← ofExcept change.contactId) change.patch))
  | .deleteContacts =>
    carrying "deleted" .nat (do
      let request ← body RemoveRequest.decoder r
      ofService (Contacts.delete a.id (← ofExcept (request.ids .contact))))
  | _ => throw (.bare 404)

/-- Does what anyone may ask for; the counts of the executor are given. -/
def ofAnyone (stats : Value) (r : HttpRequest) : Endpoint → Answering HttpResponse
  | .health => return success 200 [("jobs", stats)]
  | .searchListings =>
    carrying "results" (Page.toJson ListingView.toJson) (do
      let (filter, page) ← ofExcept (← query ListingQuery.decoder r).read
      ofService (Search.listings filter page))
  | .listing raw =>
    carrying "listing" ListingView.toJson (do
      ofService (Search.listing (← identifier .listing raw)))
  | .categories =>
    carrying "results" (Page.toJson Category.toJson) (do
      ofService (Search.categories (← ofExcept (← query PageQuery.decoder r).request)))
  | .shops =>
    carrying "results" (Page.toJson Shop.toJson) (do
      ofService (Search.shops (← ofExcept (← query PageQuery.decoder r).request)))
  | _ => throw (.bare 404)

/-- Answers a request of a route. -/
def ofRoute (secret : String) (stats : Value) (r : HttpRequest) (route : Route) :
    Answering HttpResponse := do
  if route.needsToken then
    let a ← signIn secret r
    match route.endpoint? r.method with
    | some e => ofAccount a r e
    | none => throw (.bare 405)
  else
    match route.endpoint? r.method with
    | some e => ofAnyone stats r e
    | none => throw (.bare 405)

/-- Answers a request.  Whether other sites may ask is always answered with yes. -/
def ofRequest (secret : String) (stats : Value) (r : HttpRequest) : Answering HttpResponse := do
  if r.method = .options then return .bare 200
  match Route.find? r.path with
  | some route => ofRoute secret stats r route
  | none =>
    let _ ← signIn secret r
    throw (.bare 404)

/-- The response, however it has come about. -/
def response : Except HttpResponse HttpResponse → HttpResponse
  | .ok a => a
  | .error a => a

end Answering

/-- The request asks for the head of what its path has to give. -/
def HttpRequest.wantsHeadOnly (r : HttpRequest) : Bool :=
  r.method = .head && (Route.find? r.path).any fun p => (p.endpoint? .head).isSome

/-- The program that answers a request. -/
def HttpRequest.answer (secret : String) (stats : Json.Value) (r : HttpRequest) :
    Program HttpResponse :=
  Program.bind (Answering.ofRequest secret stats r).run fun a =>
    .done (if r.wantsHeadOnly then (Answering.response a).withoutContent
      else Answering.response a)

end Marketplace
