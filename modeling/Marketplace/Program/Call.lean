import Marketplace.Job.Store
import Marketplace.Mail.Basic
import Marketplace.Storage.Call
set_option autoImplicit false

/-!
# Calls of programs

All that a service can ask for: the storage, the accounts that have been seen, jobs, mail, the
clock, new job identifiers, files, and the locks of buyers.
-/

namespace Marketplace

/-- Calls that concern jobs. -/
inductive JobCall
  | enqueue (job : Job)
  | get (owner : UserId) (id : JobId)
  | update (job : Job)
  | claimNext
  | retryFailed (owner : UserId) (id : JobId)
  deriving Repr

/-- What the call answers. -/
abbrev JobCall.Result : JobCall → Type
  | .enqueue _ => JobId
  | .get _ _ | .claimNext => Option Job
  | .update _ => Unit
  | .retryFailed _ _ => Job

/-- Why a file could not be read. -/
inductive ReadFault
  | missing
  | unreadable (detail : String)
  deriving DecidableEq, Repr

/-- A call of a program. -/
inductive Call
  | store (c : StoreCall)
  /-- The account of an identifier, if it has been seen. -/
  | account (id : UserId)
  /-- Keeps what an account is like now. -/
  | remember (a : Account)
  | job (c : JobCall)
  | send (m : Mail)
  /-- The time. -/
  | now
  /-- A job identifier that has not been given before. -/
  | newJobId
  /-- The text of a file. -/
  | read (path : String)
  /-- Waits until nobody else works on the buyer's orders. -/
  | lock (buyer : UserId)
  | unlock (buyer : UserId)
  /-- Gives up the draft of an import. -/
  | discard
  deriving Repr

/-- What the call answers. -/
abbrev Call.Reply : Call → Type
  | .store c => Except StorageFault c.Result
  | .account _ => Except Refusal (Option Account)
  | .remember _ => Except Refusal Unit
  | .job c => Except JobFault c.Result
  | .send _ => Except MailFault Unit
  | .now => Instant
  | .newJobId => JobId
  | .read _ => Except ReadFault String
  | .lock _ | .unlock _ | .discard => Unit

namespace JobCall

/-- What the call answers at a job store and a time, and the store afterwards. -/
def step (s : JobStore) (now : Instant) : (c : JobCall) → Except JobFault c.Result × JobStore
  | .enqueue job =>
    match s.enqueue job with
    | .ok t => (.ok job.id, t)
    | .error e => (.error e, s)
  | .get owner id => (s.get owner id, s)
  | .update job =>
    match s.update job with
    | .ok t => (.ok (), t)
    | .error e => (.error e, s)
  | .claimNext =>
    let (j, t) := s.claimNext now
    (.ok j, t)
  | .retryFailed owner id =>
    match s.retryFailed owner id now with
    | .ok (j, t) => (.ok j, t)
    | .error e => (.error e, s)

/-- The answer that there is nothing, for calls that have one. -/
def nothing? : (c : JobCall) → Option c.Result
  | .get _ _ | .claimNext => some none
  | .enqueue _ | .update _ | .retryFailed _ _ => none

/-- The name of the call. -/
def name : JobCall → String
  | .enqueue _ => "jobs.enqueue"
  | .get _ _ => "jobs.get"
  | .update _ => "jobs.update"
  | .claimNext => "jobs.claim_next"
  | .retryFailed _ _ => "jobs.retry_failed"

end JobCall

namespace Call

/-- The name of a call that may fail. -/
def name? : Call → Option String
  | .store c => some c.name
  | .account _ => some "account"
  | .remember _ => some "remember"
  | .job c => some c.name
  | _ => none

/-- The answer of a storage that fails, for calls that reach the storage. -/
def failing? (f : StorageFault) : (c : Call) → Option c.Reply
  | .store _ => some (.error f)
  | .account _ | .remember _ => some (.error f.refusal)
  | .job _ => some (.error (.storage f.message))
  | .send _ | .now | .newJobId | .read _ | .lock _ | .unlock _ | .discard => none

/-- The answer that there is nothing, for calls that have one. -/
def nothing? : (c : Call) → Option c.Reply
  | .store c => c.nothing?.map .ok
  | .account _ => some (.ok none)
  | .job c => c.nothing?.map .ok
  | .remember _ | .send _ | .now | .newJobId | .read _ | .lock _ | .unlock _ | .discard => none

/-- The answer of a database whose connections have been given up, for calls that reach it. -/
def closed? : (c : Call) → Option c.Reply
  | .store c => some (.error (.closed c.statement))
  | .account _ => some (.error (StorageFault.closed "get_account").refusal)
  | .remember _ => some (.error (StorageFault.closed "remember_account").refusal)
  | .job _ | .send _ | .now | .newJobId | .read _ | .lock _ | .unlock _ | .discard => none

end Call

end Marketplace
