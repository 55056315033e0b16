import Marketplace.Proofs.Account.Token
import Marketplace.Proofs.Http.Header
import Marketplace.Proofs.Order.Errand
import Marketplace.Server.Answer
set_option autoImplicit false

/-!
# Nothing changes without a token

What a request without a good token is answered with comes about by looking at the catalog and at
the clock, and a good token changes the directory of accounts in the entry of its own account alone
(`HttpRequest.changes_need_token`).

Both halves are statements on the calls that a request makes.  What is answered to anyone is made of
calls that only look (`Call.Looks`), and what is done for an account is made of calls other than the
one that keeps what an account is like (`Call.LeavesAccounts`).  That call is made in one place,
when a request signs in.
-/

namespace Marketplace

open Program

variable {w w' : World}

/-! ## Calls that only look -/

/-- The call never waits and changes nothing.  That it never waits is part of it, since an answer is
promised even while others hold locks or work on a draft. -/
def Call.Looks (c : Call) : Prop := ∀ w : World, ∃ r, w.handle c = some (r, w)

/-- A program that only looks comes to its end, and changes nothing, in any world. -/
theorem Program.Calls.run_of_looks {α : Type} {p : Program α} (hp : p.Calls Call.Looks)
    (w : World) :
    ∃ a, p.run World.handle w = some (a, w) := by
  induction p with
  | done a => exact ⟨a, rfl⟩
  | call c next ih =>
    obtain ⟨r, hr⟩ := hp.1 w
    obtain ⟨a, ha⟩ := ih r (hp.2 r)
    exact ⟨a, run_call_eq_some_iff.mpr ⟨r, w, hr, ha⟩⟩

/-! ## Calls that leave the directory of accounts alone -/

/-- The call is none that keeps what an account is like.  It may write whatever else it likes. -/
def Call.LeavesAccounts : Call → Prop
  | .remember _ => False
  | _ => True

namespace Store

variable {s s' : Store} {α : Type}

/-- The directory of accounts is beside the catalog, its draft and the book. -/
theorem accounts_edit (s : Store) (e : Edit α) : (s.edit e).2.accounts = s.accounts := by
  unfold edit
  split
  · rfl
  · split <;> rfl

theorem accounts_tryBook (s : Store) (f : OrderBook → Except StorageFault (α × OrderBook)) :
    (s.tryBook f).2.accounts = s.accounts := by
  unfold tryBook
  split <;> rfl

theorem accounts_commit (s : Store) : s.commit.accounts = s.accounts := by
  unfold commit publish
  split <;> rfl

end Store

theorem CatalogCall.accounts_step {s s' : Store} {c : CatalogCall} {r : c.Result}
    (h : c.step s = some (r, s')) : s'.accounts = s.accounts := by
  cases c with
  | begin =>
    simp only [step, Store.begin?] at h
    split at h <;> cases h
    rfl
  | setAccepting id accepting =>
    simp only [step, Store.setAccepting?] at h
    split at h <;> cases h
    rfl
  | _ =>
    cases h
    rfl

theorem DraftCall.accounts_step (s : Store) (c : DraftCall) :
    (c.step s).2.accounts = s.accounts := by
  cases c with
  | commit =>
    simp only [step]
    split
    · rfl
    · exact s.accounts_commit
  | shopByName | shopByOwner | categoryExists => rfl
  | _ => exact s.accounts_edit _

theorem OrderCall.accounts_step (s : Store) (now : Instant) (c : OrderCall) :
    (c.step s now).2.accounts = s.accounts := by
  cases c with
  | insertItem | updateQuantity | place => exact s.accounts_tryBook _
  | _ => rfl

/-- No call of the storage changes the directory of accounts. -/
theorem StoreCall.accounts_step {s s' : Store} {now : Instant} {c : StoreCall}
    {r : Except StorageFault c.Result} (h : c.step s now = some (r, s')) :
    s'.accounts = s.accounts := by
  cases c with
  | catalog c =>
    obtain ⟨⟨x, t⟩, hx, heq⟩ := Option.map_eq_some_iff.mp h
    cases heq
    exact CatalogCall.accounts_step hx
  | draft c =>
    have hs : (c.step s).2 = s' := congrArg Prod.snd (Option.some.inj h)
    rw [← hs]
    exact DraftCall.accounts_step s c
  | orders c =>
    have hs : (c.step s now).2 = s' := congrArg Prod.snd (Option.some.inj h)
    rw [← hs]
    exact OrderCall.accounts_step s now c
  | contacts c =>
    have hs : (c.step s).2 = s' := congrArg Prod.snd (Option.some.inj h)
    rw [← hs]
    cases c <;> rfl

/-- A call other than the one excepted leaves the directory as it is, whatever its answer. -/
theorem World.accounts_handle {c : Call} {r : c.Reply} (hc : c.LeavesAccounts)
    (h : w.handle c = some (r, w')) : w'.store.accounts = w.store.accounts := by
  cases c with
  | store c =>
    simp only [handle, Option.map_eq_some_iff] at h
    obtain ⟨⟨x, s⟩, hx, heq⟩ := h
    cases heq
    exact StoreCall.accounts_step hx
  | remember a => exact hc.elim
  | lock buyer =>
    simp only [handle] at h
    split at h <;> cases h
    rfl
  | _ => cases h; rfl

/-! ## The calls that answer a request

What is read of a request itself calls nothing, so any property of calls holds of it.  The endpoints
are then gone through twice: those for anyone with `Call.Looks`, those for an account with
`Call.LeavesAccounts`.
-/

variable {P : Call → Prop} {α : Type}

namespace Answering

theorem calls_ofService {x : Service α} (hx : x.run.Calls P) : (ofService x).run.Calls P :=
  hx.bind fun _ => trivial

theorem calls_ofExcept (x : Except Refusal α) : (ofExcept x).run.Calls P :=
  calls_ofService (Service.calls_ofExcept x)

theorem calls_query (d : Json.Decoder α) (r : HttpRequest) : (query d r).run.Calls P := by
  unfold query
  split <;> trivial

theorem calls_segment (name raw : String) : (segment name raw).run.Calls P := by
  unfold segment
  split <;> trivial

theorem calls_identifier (kind : IdKind) (raw : String) : (identifier kind raw).run.Calls P :=
  .exceptT_bind (calls_segment _ _) fun _ => calls_ofExcept _

theorem calls_jobId (name raw : String) : (jobId name raw).run.Calls P := by
  refine .exceptT_bind (calls_segment _ _) fun s => ?_
  split
  · trivial
  · exact calls_ofExcept _

theorem calls_carrying (name : String) (toJson : α → Json.Value) {x : Answering α}
    (hx : x.run.Calls P) : (carrying name toJson x).run.Calls P :=
  .exceptT_bind hx fun _ => trivial

/-- What anyone may ask for only looks at the catalog. -/
theorem looks_ofAnyone (stats : Json.Value) (r : HttpRequest) (e : Endpoint) :
    (ofAnyone stats r e).run.Calls Call.Looks := by
  cases e with
  | searchListings =>
    refine calls_carrying _ _ (.exceptT_bind (calls_query _ _) fun q => ?_)
    refine .exceptT_bind (calls_ofExcept _) fun x => ?_
    exact calls_ofService (Service.calls_store fun w => ⟨_, rfl⟩)
  | listing raw =>
    refine calls_carrying _ _ (.exceptT_bind (calls_identifier _ _) fun id => ?_)
    refine calls_ofService (.exceptT_bind ?_ fun found => Service.calls_orRefuse _ found)
    exact Service.calls_store fun w => ⟨_, rfl⟩
  | categories | shops =>
    refine calls_carrying _ _ (.exceptT_bind (calls_query _ _) fun q => ?_)
    refine .exceptT_bind (calls_ofExcept _) fun page => ?_
    exact calls_ofService (Service.calls_store fun w => ⟨_, rfl⟩)
  | _ => trivial

/-- What buyers ask for is about orders, also where it submits a job or takes a lock. -/
theorem leaves_errand (buyer : UserId) (e : Errand) :
    (ofService (e.service buyer)).run.Calls Call.LeavesAccounts := by
  refine calls_ofService ((e.makes_service buyer).imp fun c hc => ?_)
  cases c with
  | remember a => exact hc.1
  | _ => trivial

theorem leaves_own (a : Account) : (Shops.own a).run.Calls Call.LeavesAccounts :=
  .exceptT_bind (Service.calls_ofExcept _) fun _ =>
    .exceptT_bind (Service.calls_store trivial) fun shop => Service.calls_orRefuse _ shop

theorem leaves_toggle (a : Account) : (Shops.toggle a).run.Calls Call.LeavesAccounts :=
  .exceptT_bind (leaves_own a) fun _ =>
    .exceptT_bind (Service.calls_store trivial) fun shop => Service.calls_orRefuse _ shop

theorem leaves_get (buyer : UserId) (order : OrderId) :
    (Orders.get buyer order).run.Calls Call.LeavesAccounts := by
  refine .exceptT_bind (.exceptT_bind (Service.calls_store trivial) fun found => ?_) fun _ => ?_
  · exact Service.calls_orRefuse _ found
  · exact .exceptT_bind (Service.calls_ofExcept _) fun _ => trivial

theorem leaves_update (user : UserId) (id : ContactId) (patch : AddressInput) :
    (Contacts.update user id patch).run.Calls Call.LeavesAccounts := by
  simp only [Contacts.update]
  split
  · trivial
  · refine .exceptT_bind (Service.calls_ofExcept _) fun _ => ?_
    exact .exceptT_bind (Service.calls_store trivial) fun found => Service.calls_orRefuse _ found

theorem leaves_delete (user : UserId) (ids : List ContactId) :
    (Contacts.delete user ids).run.Calls Call.LeavesAccounts := by
  simp only [Contacts.delete]
  split
  · trivial
  · exact Service.calls_store trivial

/-- An import is submitted as a job; what it imports is looked at when the job runs. -/
theorem leaves_submitImport (a : Account) (r : HttpRequest) :
    (submitImport a r).run.Calls Call.LeavesAccounts := by
  refine .exceptT_bind (calls_ofExcept _) fun request => ?_
  refine .exceptT_bind (calls_ofExcept _) fun _ => ?_
  refine .exceptT_bind (calls_ofExcept _) fun source => ?_
  refine .exceptT_bind
    (calls_ofService ⟨trivial, fun now => ⟨trivial, fun id => trivial⟩⟩) fun job => ?_
  exact .exceptT_bind (calls_ofService ⟨trivial, fun _ => trivial⟩) fun id => trivial

/-- Once the account is known, nothing that is done for it changes the directory of accounts. -/
theorem leaves_ofAccount (a : Account) (r : HttpRequest) (e : Endpoint) :
    (ofAccount a r e).run.Calls Call.LeavesAccounts := by
  cases e with
  | submitImport => exact leaves_submitImport a r
  | importStatus raw =>
    refine calls_carrying _ _ (.exceptT_bind (calls_jobId _ _) fun id => ?_)
    refine .exceptT_bind (calls_ofService ⟨trivial, fun _ => trivial⟩) fun job => ?_
    split
    · trivial
    · exact calls_ofExcept _
  | ownShop => exact calls_carrying _ _ (calls_ofService (leaves_own a))
  | toggleShop => exact calls_carrying _ _ (calls_ofService (leaves_toggle a))
  | shopOrders =>
    refine calls_carrying _ _ (calls_ofService (.exceptT_bind (leaves_own a) fun _ => ?_))
    exact Service.calls_store trivial
  | basket => exact calls_carrying _ _ (leaves_errand a.id .basket)
  | addItems =>
    refine .exceptT_bind (calls_ofExcept _) fun request => ?_
    refine .exceptT_bind (calls_ofExcept _) fun inputs => ?_
    exact .exceptT_bind (leaves_errand a.id (.add inputs)) fun _ => trivial
  | updateItems =>
    refine calls_carrying _ _ (.exceptT_bind (calls_ofExcept _) fun request => ?_)
    exact .exceptT_bind (calls_ofExcept _) fun inputs => leaves_errand a.id (.update inputs)
  | removeItems =>
    refine calls_carrying _ _ (.exceptT_bind (calls_ofExcept _) fun request => ?_)
    exact .exceptT_bind (calls_ofExcept _) fun ids => leaves_errand a.id (.remove ids)
  | placedOrders => exact calls_carrying _ _ (calls_ofService (Service.calls_store trivial))
  | checkout =>
    refine .exceptT_bind (calls_ofExcept _) fun request => ?_
    refine .exceptT_bind (calls_ofExcept _) fun x => ?_
    exact .exceptT_bind (leaves_errand a.id (.checkout x.1 x.2)) fun _ => trivial
  | order raw =>
    refine calls_carrying _ _ (.exceptT_bind (calls_identifier _ _) fun id => ?_)
    exact calls_ofService (leaves_get a.id id)
  | job raw | retryJob raw =>
    refine calls_carrying _ _ (.exceptT_bind (calls_jobId _ _) fun id => ?_)
    exact calls_ofService ⟨trivial, fun _ => trivial⟩
  | contacts => exact calls_carrying _ _ (calls_ofService (Service.calls_store trivial))
  | createContact =>
    refine .exceptT_bind (calls_ofExcept _) fun draft => ?_
    refine .exceptT_bind (calls_ofService ?_) fun _ => trivial
    exact .exceptT_bind (Service.calls_ofExcept _) fun _ => Service.calls_store trivial
  | updateContact =>
    refine calls_carrying _ _ (.exceptT_bind (calls_ofExcept _) fun change => ?_)
    refine .exceptT_bind (calls_ofExcept _) fun id => calls_ofService ?_
    exact leaves_update a.id id change.patch
  | deleteContacts =>
    refine calls_carrying _ _ (.exceptT_bind (calls_ofExcept _) fun request => ?_)
    refine .exceptT_bind (calls_ofExcept _) fun ids => calls_ofService ?_
    exact leaves_delete a.id ids
  | _ => trivial

end Answering

/-! ## Signing in -/

/-- The request carries a token that is accepted at the time, with these claims: its authorization
is what is sent for the word `Bearer`, a space and the token, which may have blanks around it, and
all of that is visible ASCII.  An authorization with any other octet carries nothing, even if a
blank beyond ASCII is all that is wrong with it. -/
def HttpRequest.Carries (r : HttpRequest) (secret : String) (now : Instant) (claims : Claims) :
    Prop :=
  ∃ raw, r.authorization = some (.ofText ("Bearer " ++ raw)) ∧
    (HeaderValue.ofText ("Bearer " ++ raw)).octets.all HeaderValue.isVisible = true ∧
    Token.validate secret (Text.trim raw) now = .ok claims

/-- An authorization with an octet in it that is not visible carries nothing. -/
theorem HttpRequest.not_carries {r : HttpRequest} {h : HeaderValue} {b : UInt8}
    (hr : r.authorization = some h) (hb : b ∈ h.octets) (hhidden : HeaderValue.isVisible b = false)
    (secret : String) (now : Instant) (claims : Claims) : ¬r.Carries secret now claims := by
  rintro ⟨raw, hraw, hvisible, -⟩
  rw [hr, Option.some.injEq] at hraw
  have hall := List.all_eq_true.mp hvisible b (hraw ▸ hb)
  rw [hhidden] at hall
  cases hall

/-- A no-break space behind a token is one octet too many that is not visible. -/
theorem HttpRequest.not_carries_noBreakSpace {r : HttpRequest} (token : String)
    (hr : r.authorization = some (.ofText ("Bearer " ++ (token ++ "\u00a0")))) (secret : String)
    (now : Instant) (claims : Claims) : ¬r.Carries secret now claims := by
  refine not_carries (b := 0xC2) hr ?_ (by decide) secret now claims
  simp only [HeaderValue.ofText, String.toList_append, List.flatMap_append, List.mem_append]
  exact Or.inr (Or.inr (by decide))

/-- A signed token is visible throughout, so a request carries it if it is accepted. -/
theorem HttpRequest.carries_signText {r : HttpRequest} {secret text : String} {now : Instant}
    {claims : Claims}
    (hr : r.authorization = some (.ofText ("Bearer " ++ Token.signText secret text)))
    (hread : Token.read secret (Token.signText secret text) = .ok claims)
    (hcheck : claims.check now = .ok ()) : r.Carries secret now claims := by
  refine ⟨_, hr, HeaderValue.all_isVisible_ofText fun c hc => ?_,
    Token.validate_trim_signText hread hcheck⟩
  have hword : ∀ c ∈ ['B', 'e', 'a', 'r', 'e', 'r', ' '], 32 ≤ c.toNat ∧ c.toNat < 127 := by simp
  rw [String.toList_append, List.mem_append] at hc
  rcases hc with hc | hc
  · exact hword c hc
  · exact Token.visible_of_mem_signText _ _ c hc

namespace Answering

/-- The token of an authorization is what stands behind the word and one space, without the blanks
around it.  An authorization that is not text has none, and neither has a blank one. -/
theorem bearerToken?_eq_some_iff {h : HeaderValue} {token : String} :
    bearerToken? h = some token ↔
      ∃ raw, h.text? = some ("Bearer " ++ raw) ∧ Text.nonBlank? raw = some token := by
  unfold bearerToken?
  rw [Option.bind_eq_bind, Option.bind_eq_some_iff]
  constructor
  · rintro ⟨text, htext, hbearer⟩
    split at hbearer
    · rename_i hstarts
      obtain ⟨rest, hsplit⟩ := String.startsWith_string_iff.mp hstarts
      rw [← hsplit] at hbearer
      have hrest : (String.ofList rest).toList = rest := String.toList_ofList
      refine ⟨String.ofList rest, htext.trans (congrArg some ?_), hbearer⟩
      refine String.ext (hsplit.symm.trans ?_)
      rw [String.toList_append, hrest]
    · cases hbearer
  · rintro ⟨raw, htext, htoken⟩
    have hstarts : ("Bearer " ++ raw).startsWith "Bearer " = true := by
      rw [String.startsWith_string_iff, String.toList_append]
      exact List.prefix_append _ _
    have hrest : String.ofList (("Bearer " ++ raw).toList.drop 7) = raw := by
      rw [String.toList_append]
      exact String.ofList_toList
    refine ⟨_, htext, ?_⟩
    rw [if_pos hstarts, hrest, htoken]

/-- A token is never blank: it has three parts, with dots between them.  So it makes no difference
that blank tokens are passed over before they are looked at. -/
theorem not_validate_empty (secret : String) (now : Instant) (claims : Claims) :
    Token.validate secret "" now ≠ .ok claims := by
  unfold Token.validate Token.read
  rw [show Token.splitLast "".toList = none from rfl]
  nofun

/-- A request carries the token that is read from its authorization.  `HttpRequest.Carries` says in
terms of octets what is sent, this says it in terms of what the server reads. -/
theorem carries_iff {secret : String} {r : HttpRequest} {now : Instant} {claims : Claims} :
    r.Carries secret now claims ↔ ∃ token, r.authorization.bind bearerToken? = some token ∧
      Token.validate secret token now = .ok claims := by
  unfold HttpRequest.Carries
  constructor
  · rintro ⟨raw, hraw, hvisible, hvalid⟩
    refine ⟨Text.trim raw, ?_, hvalid⟩
    rw [hraw, Option.bind_some, bearerToken?_eq_some_iff]
    refine ⟨raw, HeaderValue.text?_eq_some_iff.mpr ⟨hvisible, rfl⟩, if_neg fun hempty => ?_⟩
    rw [String.isEmpty_iff.mp hempty] at hvalid
    exact not_validate_empty secret now claims hvalid
  · rintro ⟨token, htoken, hvalid⟩
    obtain ⟨authorization, hauthorization, hbearer⟩ := Option.bind_eq_some_iff.mp htoken
    obtain ⟨raw, htext, hblank⟩ := bearerToken?_eq_some_iff.mp hbearer
    obtain ⟨hvisible, rfl⟩ := HeaderValue.text?_eq_some_iff.mp htext
    refine ⟨raw, hauthorization, hvisible, ?_⟩
    unfold Text.nonBlank? at hblank
    simp only at hblank
    split at hblank
    · cases hblank
    · cases hblank
      exact hvalid

/-- Without a good token a request is not let in, and nothing changes. -/
theorem run_signIn_error {secret : String} {r : HttpRequest}
    (h : ∀ claims, ¬r.Carries secret w.clock claims) :
    (signIn secret r).run.run World.handle w = some (.error unauthorized, w) := by
  unfold signIn
  cases htoken : r.authorization.bind bearerToken? with
  | none => rfl
  | some token =>
    have hnow : (ofService (Service.ask .now)).run.run World.handle w = some (.ok w.clock, w) := rfl
    simp only
    rw [run_bind_of_ok hnow]
    cases hvalid : Token.validate secret token w.clock with
    | error f => rfl
    | ok claims => exact absurd (carries_iff.mpr ⟨token, htoken, hvalid⟩) (h claims)

/-- With a good token a request is let in, and its account is remembered. -/
theorem run_signIn {secret : String} {r : HttpRequest} {claims : Claims}
    (h : r.Carries secret w.clock claims) :
    (signIn secret r).run.run World.handle w =
      some (.ok claims.account, { w with store := w.store.remember claims.account }) := by
  obtain ⟨token, htoken, hvalid⟩ := carries_iff.mp h
  have hnow : (ofService (Service.ask .now)).run.run World.handle w = some (.ok w.clock, w) := rfl
  unfold signIn
  rw [htoken]
  simp only
  rw [run_bind_of_ok hnow, hvalid]
  rfl

/-- Whatever is done on a path that anyone may ask for only looks.  A method that the path does not
have is refused, which looks at nothing. -/
theorem looks_ofRoute {secret : String} {stats : Json.Value} {r : HttpRequest} {route : Route}
    (hopen : route.needsToken = false) :
    (ofRoute secret stats r route).run.Calls Call.Looks := by
  unfold ofRoute
  rw [if_neg (by rw [hopen]; exact Bool.false_ne_true)]
  cases route.endpoint? r.method with
  | none => trivial
  | some e => exact looks_ofAnyone stats r e

/-- A request without a good token looks at what there is, or is not let in.  Which of the two it is
depends on the path alone, except that what other sites may do can be asked of any path. -/
theorem run_ofRequest_without {secret : String} {r : HttpRequest} (stats : Json.Value)
    (h : ∀ claims, ¬r.Carries secret w.clock claims) :
    ∃ x, (ofRequest secret stats r).run.run World.handle w = some (x, w) ∧
      (r.method ≠ .options → (∀ route, Route.find? r.path = some route → route.needsToken = true) →
        x = .error unauthorized) := by
  have hrefused := run_signIn_error h
  unfold ofRequest
  by_cases hoptions : r.method = .options
  · rw [if_pos hoptions]
    exact ⟨_, rfl, fun hnot => absurd hoptions hnot⟩
  · rw [if_neg hoptions]
    cases hroute : Route.find? r.path with
    | none => exact ⟨_, run_bind_of_error hrefused, fun _ _ => rfl⟩
    | some route =>
      cases hneeds : route.needsToken with
      | true =>
        have hguard : (ofRoute secret stats r route).run.run World.handle w =
            some (.error unauthorized, w) := by
          unfold ofRoute
          rw [if_pos hneeds]
          exact run_bind_of_error hrefused
        exact ⟨_, hguard, fun _ _ => rfl⟩
      | false =>
        obtain ⟨x, hrun⟩ := (looks_ofRoute hneeds).run_of_looks w
        refine ⟨x, hrun, fun _ hguarded => ?_⟩
        rw [hguarded route rfl] at hneeds
        cases hneeds

theorem accounts_of_calls {p : Program α} (hp : p.Calls Call.LeavesAccounts) {a : α}
    (hrun : p.run World.handle w = some (a, w')) : w'.store.accounts = w.store.accounts :=
  hp.run_invariant (I := fun v => v.store.accounts = w.store.accounts)
    (fun _ _ _ _ hc hstep hthere => (World.accounts_handle hc hstep).trans hthere) hrun rfl

/-- A request with a good token to a path that needs one is answered for the token's account, which
is remembered first.  What is done for the account is done in a world that knows it. -/
theorem run_ofRequest {secret : String} {r : HttpRequest} {stats : Json.Value} {claims : Claims}
    (h : r.Carries secret w.clock claims) (route : Route) {e : Endpoint}
    (hmethod : r.method ≠ .options) (hroute : Route.find? r.path = some route)
    (hneeds : route.needsToken = true) (hend : route.endpoint? r.method = some e) :
    (ofRequest secret stats r).run.run World.handle w =
      (ofAccount claims.account r e).run.run World.handle
        { w with store := w.store.remember claims.account } := by
  unfold ofRequest
  rw [if_neg hmethod, hroute]
  simp only
  unfold ofRoute
  rw [if_pos hneeds, run_bind_of_ok (run_signIn h), hend]

/-- A request with a good token keeps what its account is like now, and nothing else of accounts.
If its path needs no token nobody signs in, so that the directory stays as it was. -/
theorem accounts_ofRequest {secret : String} {r : HttpRequest} {stats : Json.Value}
    {claims : Claims} (h : r.Carries secret w.clock claims) {x : Except HttpResponse HttpResponse}
    (hrun : (ofRequest secret stats r).run.run World.handle w = some (x, w')) :
    w'.store.accounts = w.store.accounts ∨
      w'.store.accounts = w.store.accounts.insert claims.subject claims.account := by
  have hlet := run_signIn h
  unfold ofRequest at hrun
  by_cases hoptions : r.method = .options
  · rw [if_pos hoptions] at hrun
    cases hrun
    exact Or.inl rfl
  · rw [if_neg hoptions] at hrun
    cases hroute : Route.find? r.path with
    | none =>
      rw [hroute] at hrun
      simp only at hrun
      rw [run_bind_of_ok hlet] at hrun
      cases hrun
      exact Or.inr rfl
    | some route =>
      rw [hroute] at hrun
      simp only at hrun
      cases hneeds : route.needsToken with
      | true =>
        unfold ofRoute at hrun
        rw [if_pos hneeds, run_bind_of_ok hlet] at hrun
        refine Or.inr (accounts_of_calls ?_ hrun)
        cases route.endpoint? r.method with
        | none => trivial
        | some e => exact leaves_ofAccount claims.account r e
      | false =>
        obtain ⟨y, hlooks⟩ := (looks_ofRoute hneeds).run_of_looks w
        cases hlooks.symm.trans hrun
        exact Or.inl rfl

end Answering

/-- Without a good token nothing changes.  A request that carries none is answered in any world,
which is then as it was; and unless it only asks what other sites may do, or its path is one that
anyone may ask for, it is told that it has no good token.  A request that carries one changes the
directory of accounts in the entry of the token's subject alone, which becomes what the token
says. -/
theorem HttpRequest.changes_need_token (secret : String) (stats : Json.Value) (r : HttpRequest)
    (w : World) :
    ((∀ claims, ¬r.Carries secret w.clock claims) →
      ∃ a, (r.answer secret stats).run World.handle w = some (a, w) ∧
        (r.method ≠ .options →
          (∀ route, Route.find? r.path = some route → route.needsToken = true) →
            a.status = 401)) ∧
    ∀ claims, r.Carries secret w.clock claims → ∀ a w',
      (r.answer secret stats).run World.handle w = some (a, w') →
        w'.store.accounts = w.store.accounts ∨
          w'.store.accounts = w.store.accounts.insert claims.subject claims.account := by
  unfold answer
  simp only [run_bind]
  constructor
  · intro h
    obtain ⟨x, hrun, hstatus⟩ := Answering.run_ofRequest_without stats h
    rw [hrun]
    refine ⟨_, rfl, fun hmethod hguarded => ?_⟩
    rw [hstatus hmethod hguarded]
    split <;> rfl
  · intro claims h a w' hrun
    obtain ⟨⟨x, v⟩, hrequest, hdone⟩ := Option.bind_eq_some_iff.mp hrun
    cases hdone
    exact Answering.accounts_ofRequest h hrequest

/-- A buyer's first visit with the token of `firstClaims` and a no-break space behind it, and then
with the token alone: the first authorization is not visible throughout, so the buyer is not let in,
and with the second one the account becomes known. -/
theorem HttpRequest.changes_need_token_at_whoami : ∃ (w w' : World) (r r' : HttpRequest)
    (a a' : HttpResponse), r.path = "/whoami" ∧
      r.authorization =
        some (.ofText ("Bearer " ++ (Token.signText "secret" firstClaimsText ++ "\u00a0"))) ∧
      r' = { r with
        authorization := some (.ofText ("Bearer " ++ Token.signText "secret" firstClaimsText)) } ∧
      (∀ claims, ¬r.Carries "secret" w.clock claims) ∧ r'.Carries "secret" w.clock firstClaims ∧
      (r.answer "secret" .null).run World.handle w = some (a, w) ∧ a.status = 401 ∧
      (r'.answer "secret" .null).run World.handle w = some (a', w') ∧
      (w'.store.accounts = w.store.accounts ∨
        w'.store.accounts = w.store.accounts.insert ⟨7⟩ ⟨⟨7⟩, "", .buyer⟩) := by
  obtain ⟨w, hw⟩ : ∃ w : World, w = .start ⟨5, 0⟩ 3 := ⟨_, rfl⟩
  obtain ⟨token, htoken⟩ : ∃ token, token = Token.signText "secret" firstClaimsText := ⟨_, rfl⟩
  obtain ⟨r, hr⟩ : ∃ r : HttpRequest, r =
    ⟨.get, "/whoami", "", some (.ofText ("Bearer " ++ (token ++ "\u00a0"))), none, .empty⟩ :=
    ⟨_, rfl⟩
  obtain ⟨r', hr'⟩ : ∃ r' : HttpRequest, r' = { r with
    authorization := some (.ofText ("Bearer " ++ token)) } := ⟨_, rfl⟩
  have hwithout : ∀ claims, ¬r.Carries "secret" w.clock claims :=
    not_carries_noBreakSpace token (by rw [hr]) _ _
  have hwith : r'.Carries "secret" w.clock firstClaims := by
    refine carries_signText (by rw [hr', htoken]) (Token.read_firstClaims _) ?_
    rw [hw]
    decide
  have hroute : Route.find? "/whoami" = some (.guarded [(.get, .whoAmI)]) := rfl
  have hguarded : ∀ route, Route.find? r.path = some route → route.needsToken = true := by
    intro route hfound
    rw [hr, hroute] at hfound
    cases hfound
    rfl
  have hget : HttpMethod.get ≠ .options := by decide
  obtain ⟨a, hrun, hstatus⟩ := (changes_need_token "secret" .null r w).1 hwithout
  have hrequest : (Answering.ofRequest "secret" .null r').run.run World.handle w = _ :=
    Answering.run_ofRequest hwith (.guarded [(.get, .whoAmI)]) (by rw [hr', hr]; exact hget)
      (by rw [hr', hr]; exact hroute) rfl (by rw [hr', hr]; rfl)
  obtain ⟨a', hanswer⟩ : ∃ a', (r'.answer "secret" .null).run World.handle w =
      some (a', { w with store := w.store.remember firstClaims.account }) := by
    unfold answer
    rw [run_bind, hrequest]
    exact ⟨_, rfl⟩
  refine ⟨w, _, r, r', a, a', congrArg HttpRequest.path hr, ?_, ?_, hwithout, hwith, hrun,
    hstatus (by rw [hr]; exact hget) hguarded, hanswer,
    (changes_need_token "secret" .null r' w).2 firstClaims hwith _ _ hanswer⟩
  · rw [hr, htoken]
  · rw [hr', htoken]

end Marketplace
