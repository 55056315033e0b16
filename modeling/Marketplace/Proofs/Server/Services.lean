import Marketplace.Proofs.Order.Errand
import Marketplace.Server.Answer
import Marketplace.Service.Work
set_option autoImplicit false

/-!
# The server leaves orders to the services

Whatever requests ask for and jobs do, it is of the kind that the theory of orders is about: items
are changed, orders placed and locks taken by errands alone, and every job is submitted under an
identifier that has just been given for it.
-/

namespace Marketplace

open Program

/-! ## Services

Services that make no reserved call go through themselves.  Everything else is made of these and of
errands, by binding one to the other.
-/

namespace Service

variable {α : Type}

theorem through_orRefuse (r : Refusal) (x : Option α) : (orRefuse r x).run.ThroughServices := by
  cases x <;> exact .done _

/-- A call of the storage that is not reserved may be made by anybody.  Reserved are those that
change orders and items, which only errands make. -/
theorem through_store {c : StoreCall} (hc : (Call.store c).isReserved = false) :
    (store c).run.ThroughServices := .call hc fun _ => .done _

end Service

theorem Shops.through_own (a : Account) : (own a).run.ThroughServices :=
  .exceptT_bind (Service.through_ofExcept _) fun _ =>
    .exceptT_bind (Service.through_store rfl) fun shop => Service.through_orRefuse _ shop

theorem Shops.through_toggle (a : Account) : (toggle a).run.ThroughServices :=
  .exceptT_bind (through_own a) fun _ =>
    .exceptT_bind (Service.through_store rfl) fun shop => Service.through_orRefuse _ shop

theorem Orders.through_detail (order : OrderId) : (detail order).run.ThroughServices :=
  .exceptT_bind (Service.through_store rfl) fun found => Service.through_orRefuse _ found

theorem Orders.through_ofShop (a : Account) : (ofShop a).run.ThroughServices :=
  .exceptT_bind (Shops.through_own a) fun _ => Service.through_store rfl

theorem Orders.through_get (buyer : UserId) (order : OrderId) :
    (get buyer order).run.ThroughServices :=
  .exceptT_bind (through_detail order) fun _ =>
    .exceptT_bind (Service.through_ofExcept _) fun _ => .done _

theorem Service.through_account (id : UserId) : (account id).run.ThroughServices :=
  .call rfl fun _ => .done _

theorem Search.through_listing (id : ListingId) : (listing id).run.ThroughServices :=
  .exceptT_bind (Service.through_store rfl) fun found => Service.through_orRefuse _ found

/-! ## Requests

A request is routed, signed in and read before a service is asked, and each of these parts calls
nothing, or only remembers the account.
-/

namespace Answering

variable {α : Type}

theorem through_ofService {x : Service α} (hx : x.run.ThroughServices) :
    (ofService x).run.ThroughServices := hx.bind fun _ => .done _

theorem through_ofExcept (x : Except Refusal α) : (ofExcept x).run.ThroughServices :=
  through_ofService (Service.through_ofExcept x)

theorem through_ofJobs {x : JobService α} (hx : x.run.ThroughServices) :
    (ofJobs x).run.ThroughServices := through_ofService (hx.bind fun _ => .done _)

/-- What buyers ask for is an errand as it stands, and nothing else may change orders. -/
theorem through_errand (buyer : UserId) (e : Errand) :
    (ofService (e.service buyer)).run.ThroughServices := .errand buyer e fun _ => .done _

theorem through_query (d : Json.Decoder α) (r : HttpRequest) :
    (query d r).run.ThroughServices := by
  unfold query
  split <;> exact .done _

theorem through_segment (name raw : String) : (segment name raw).run.ThroughServices := by
  unfold segment
  split <;> exact .done _

theorem through_identifier (kind : IdKind) (raw : String) :
    (identifier kind raw).run.ThroughServices :=
  .exceptT_bind (through_segment _ _) fun _ => through_ofExcept _

/-- A job is named by the text of its identifier; a text that is none ends the request. -/
theorem through_jobId (name raw : String) : (jobId name raw).run.ThroughServices := by
  refine .exceptT_bind (through_segment _ _) fun s => ?_
  split
  · exact .done _
  · exact through_ofExcept _

theorem through_carrying (name : String) (toJson : α → Json.Value) {x : Answering α}
    (hx : x.run.ThroughServices) : (carrying name toJson x).run.ThroughServices :=
  .exceptT_bind hx fun _ => .done _

/-- Who signs in is remembered.  That is a write, but not one of an order. -/
theorem through_signIn (secret : String) (r : HttpRequest) :
    (signIn secret r).run.ThroughServices := by
  unfold signIn
  split
  · exact .done _
  · refine .exceptT_bind (through_ofService (.call rfl fun _ => .done _)) fun now => ?_
    split
    · exact .done _
    · exact .exceptT_bind (through_ofService (.call rfl fun _ => .done _)) fun _ => .done _

/-- A job is submitted only after it has been created, under the identifier that the creation was
given.  This is the one way for requests to submit jobs, so it is stated with whatever becomes of
the job. -/
theorem through_submission (owner : UserId) (payload : JobPayload) {f : JobId → Answering α}
    (hf : ∀ id, (f id).run.ThroughServices) :
    (do
      let job ← ofService (ExceptT.lift (JobService.create owner payload))
      f (← ofJobs (JobService.submit job))).run.ThroughServices := by
  refine @ThroughServices.submit _ owner payload
    (fun r => ExceptT.bindCont f ((r.mapError JobFault.refusal).mapError HttpResponse.ofRefusal))
    fun r => ?_
  rcases r with fault | id
  · exact .done _
  · exact hf id

theorem through_submitImport (a : Account) (r : HttpRequest) :
    (submitImport a r).run.ThroughServices := by
  refine .exceptT_bind (through_ofExcept _) fun request => ?_
  refine .exceptT_bind (through_ofExcept _) fun _ => ?_
  exact .exceptT_bind (through_ofExcept _) fun source => through_submission _ _ fun _ => .done _

theorem through_importJob (a : Account) (id : JobId) : (importJob a id).run.ThroughServices := by
  refine .exceptT_bind (through_ofJobs (.call rfl fun _ => .done _)) fun job => ?_
  split
  · exact .done _
  · exact through_ofExcept _

/-- What an account may ask for, endpoint by endpoint. -/
theorem through_ofAccount (a : Account) (r : HttpRequest) (e : Endpoint) :
    (ofAccount a r e).run.ThroughServices := by
  cases e with
  | submitImport => exact through_submitImport a r
  | importStatus raw =>
    exact through_carrying _ _ (.exceptT_bind (through_jobId _ _) fun id => through_importJob a id)
  | ownShop => exact through_carrying _ _ (through_ofService (Shops.through_own a))
  | toggleShop => exact through_carrying _ _ (through_ofService (Shops.through_toggle a))
  | shopOrders => exact through_carrying _ _ (through_ofService (Orders.through_ofShop a))
  | basket => exact through_carrying _ _ (through_errand a.id .basket)
  | addItems =>
    refine .exceptT_bind (through_ofExcept _) fun request => ?_
    refine .exceptT_bind (through_ofExcept _) fun inputs => ?_
    exact .exceptT_bind (through_errand a.id (.add inputs)) fun _ => .done _
  | updateItems =>
    refine through_carrying _ _ (.exceptT_bind (through_ofExcept _) fun request => ?_)
    exact .exceptT_bind (through_ofExcept _) fun inputs => through_errand a.id (.update inputs)
  | removeItems =>
    refine through_carrying _ _ (.exceptT_bind (through_ofExcept _) fun request => ?_)
    exact .exceptT_bind (through_ofExcept _) fun ids => through_errand a.id (.remove ids)
  | placedOrders => exact through_carrying _ _ (through_ofService (Service.through_store rfl))
  | checkout =>
    refine .exceptT_bind (through_ofExcept _) fun request => ?_
    refine .exceptT_bind (through_ofExcept _) fun x => ?_
    exact .exceptT_bind (through_errand a.id (.checkout x.1 x.2)) fun _ => .done _
  | order raw =>
    refine through_carrying _ _ (.exceptT_bind (through_identifier _ _) fun id => ?_)
    exact through_ofService (Orders.through_get a.id id)
  | job raw =>
    refine through_carrying _ _ (.exceptT_bind (through_jobId _ _) fun id => ?_)
    exact through_ofJobs (.call rfl fun _ => .done _)
  | retryJob raw =>
    refine through_carrying _ _ (.exceptT_bind (through_jobId _ _) fun id => ?_)
    exact through_ofJobs (.call rfl fun _ => .done _)
  | contacts => exact through_carrying _ _ (through_ofService (Contacts.through_list a.id))
  | createContact =>
    refine .exceptT_bind (through_ofExcept _) fun draft => ?_
    refine .exceptT_bind (through_ofService ?_) fun _ => .done _
    exact Contacts.through_create a.id draft
  | updateContact =>
    refine through_carrying _ _ (.exceptT_bind (through_ofExcept _) fun change => ?_)
    refine .exceptT_bind (through_ofExcept _) fun id => through_ofService ?_
    exact Contacts.through_update a.id id change.patch
  | deleteContacts =>
    refine through_carrying _ _ (.exceptT_bind (through_ofExcept _) fun request => ?_)
    refine .exceptT_bind (through_ofExcept _) fun ids => through_ofService ?_
    exact Contacts.through_delete a.id ids
  | _ => exact .done _

/-- What is answered without an account, endpoint by endpoint. -/
theorem through_ofAnyone (stats : Json.Value) (r : HttpRequest) (e : Endpoint) :
    (ofAnyone stats r e).run.ThroughServices := by
  cases e with
  | searchListings =>
    refine through_carrying _ _ (.exceptT_bind (through_query _ _) fun q => ?_)
    refine .exceptT_bind (through_ofExcept _) fun x => ?_
    exact through_ofService (Service.through_store rfl)
  | listing raw =>
    refine through_carrying _ _ (.exceptT_bind (through_identifier _ _) fun id => ?_)
    exact through_ofService (Search.through_listing id)
  | categories =>
    refine through_carrying _ _ (.exceptT_bind (through_query _ _) fun q => ?_)
    exact .exceptT_bind (through_ofExcept _) fun page =>
      through_ofService (Service.through_store rfl)
  | shops =>
    refine through_carrying _ _ (.exceptT_bind (through_query _ _) fun q => ?_)
    exact .exceptT_bind (through_ofExcept _) fun page =>
      through_ofService (Service.through_store rfl)
  | _ => exact .done _

theorem through_ofRoute (secret : String) (stats : Json.Value) (r : HttpRequest)
    (route : Route) : (ofRoute secret stats r route).run.ThroughServices := by
  unfold ofRoute
  split
  · refine .exceptT_bind (through_signIn secret r) fun a => ?_
    cases route.endpoint? r.method with
    | none => exact .done _
    | some e => exact through_ofAccount a r e
  · cases route.endpoint? r.method with
    | none => exact .done _
    | some e => exact through_ofAnyone stats r e

end Answering

/-- Every request is answered by a program that goes through the services, whatever its route, its
token and its body are. -/
theorem HttpRequest.through_answer (secret : String) (stats : Json.Value)
    (r : HttpRequest) : (r.answer secret stats).ThroughServices := by
  refine .bind ?_ fun _ => .done _
  unfold Answering.ofRequest
  split
  · exact .done _
  · cases Route.find? r.path with
    | none => exact .exceptT_bind (Answering.through_signIn secret r) fun _ => .done _
    | some route => exact Answering.through_ofRoute secret stats r route

/-! ## Jobs -/

namespace Notify

/-- Who is to be told is read from the catalog and the accounts, shop by shop. -/
theorem through_ownerMails (d : OrderDetail) (ids : List ShopId) (seen : List String) :
    (ownerMails d ids seen).run.ThroughServices := by
  induction ids generalizing seen with
  | nil => exact .done _
  | cons id ids ih =>
    refine .exceptT_bind (Service.through_store rfl) fun shop => ?_
    rcases shop with - | shop
    · exact ih seen
    · refine .exceptT_bind (Service.through_account _) fun owner => ?_
      rcases owner with - | owner
      · exact .exceptT_bind (ih seen) fun _ => .done _
      · simp only
        split
        · exact ih seen
        · exact .exceptT_bind (ih _) fun _ => .done _

theorem through_sendAll (ms : List Mail) : (sendAll ms).ThroughServices := by
  induction ms with
  | nil => exact .done _
  | cons m ms ih => exact .call rfl fun r => ih.bind fun _ => .done _

theorem through_order (buyer : UserId) (id : OrderId) :
    (order buyer id).run.ThroughServices := by
  refine .exceptT_bind (Service.through_store rfl) fun found => ?_
  refine .exceptT_bind (Service.through_orRefuse _ found) fun d => ?_
  refine .exceptT_bind (Service.through_ofExcept _) fun _ => .exceptT_bind ?_ fun batch => ?_
  · refine .exceptT_bind (Service.through_account _) fun account => ?_
    exact .exceptT_bind (through_ownerMails _ _ _) fun owners => .done _
  · exact .exceptT_bind ((through_sendAll _).bind fun _ => .done _) fun _ => .done _

end Notify

/-- An import reads a file and edits its own draft; it makes no call of orders or jobs. -/
theorem Importer.through_importFrom (source : PriceListSource) (user : UserId) :
    (importFrom source user).run.ThroughServices := by
  refine .exceptT_bind ?_ fun text => ?_
  · cases source with
    | document text => exact .done _
    | path path => exact .call rfl fun _ => .done _
  · cases PriceList.ofText text with
    | error f => exact .done _
    | ok list => exact through_apply list user

namespace Work

theorem through_importList (j : Job) : (importList j).ThroughServices := by
  unfold importList
  split
  · refine .call rfl fun account => ?_
    rcases account with r | account
    · exact .done _
    · show ThroughServices (if _ then _ else _)
      split
      · exact .bind (Importer.through_importFrom _ _) fun r => by cases r <;> exact .done _
      · exact .done _
  · exact .done _

theorem through_notifyPlaced (j : Job) : (notifyPlaced j).ThroughServices := by
  unfold notifyPlaced
  split
  · exact .bind (Notify.through_order _ _) fun r => by cases r <;> exact .done _
  · exact .done _

theorem through_bind {α β : Type} {x : Run α} {f : α → Run β} (hx : x.run.ThroughServices)
    (hf : ∀ a, (f a).run.ThroughServices) : (x >>= f).run.ThroughServices :=
  hx.bind fun
    | none => .done _
    | some a => hf a

theorem through_conclude (j : Job) (started : Instant) (result : JobResult) :
    (conclude j started result).run.ThroughServices := by
  refine .call rfl fun ended => ?_
  dsimp only [Program.bind]
  cases j.finish started ended result with
  | none => exact .done _
  | some j => exact .call (c := .job (.update j)) rfl fun r => by cases r <;> exact .done _

/-- Every run of a job, of whatever kind, goes through the services: its work does, and so does the
bookkeeping before and after it. -/
theorem through_execute (j : Job) :
    (execute (some (ofKind j.kind)) j).run.ThroughServices := by
  refine through_bind (.call rfl fun _ => .done _) fun started => ?_
  refine through_bind (.bind ?_ fun _ => .done _) fun result => through_conclude j started result
  cases j.kind with
  | importPriceList => exact through_importList j
  | notifyOrderPlaced => exact through_notifyPlaced j

end Work

/-! ## What the server does -/

/-- What a server of a secret begins: answers to requests, and the claiming and running of jobs.  A
claim is a program of its own here, so that a worker may also stop after it. -/
inductive Program.Served (secret : String) : Program Unit → Prop
  | request (stats : Json.Value) (r : HttpRequest) :
    Served secret ((r.answer secret stats).bind fun _ => .done ())
  | claim : Served secret ((Program.ask (.job .claimNext)).bind fun _ => .done ())
  | job (j : Job) :
    Served secret ((Work.execute (some (Work.ofKind j.kind)) j).run.bind fun _ => .done ())

theorem Program.Served.throughServices {secret : String} {p : Program Unit} (hp : p.Served secret) :
    p.ThroughServices := by
  cases hp with
  | request stats r => exact (r.through_answer secret stats).bind fun _ => .done ()
  | claim => exact .call rfl fun _ => .done ()
  | job j => exact (Work.through_execute j).bind fun _ => .done ()

/-- Whatever is true of all that services can bring about is true of all that a server can.  The
results on orders, baskets and jobs are stated for programs that go through the services, and this
is why they hold of a server. -/
theorem Pool.Reachable.of_served {secret : String} {P : Pool}
    (h : P.Reachable (Program.Served secret)) : P.Reachable Program.ThroughServices :=
  h.mono fun _ hp => hp.throughServices

end Marketplace
