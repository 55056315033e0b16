import Marketplace.Job.Basic
import Marketplace.Refusal
set_option autoImplicit false

/-!
# The job store

Jobs by identifier.  Jobs that wait or run are always kept; of the finished ones only the latest
are, up to a number that the store is made with.
-/

namespace Marketplace

/-- Why a job store does not do what it was asked for. -/
inductive JobFault
  | notFound (id : JobId)
  | notOwner (id : JobId)
  | alreadyExists (id : JobId)
  | notFailed (id : JobId)
  | storage (detail : String)
  deriving DecidableEq, Repr

namespace JobFault

/-- The name of the kind of fault. -/
def label : JobFault → String
  | .notFound _ => "not_found"
  | .notOwner _ => "not_owner"
  | .alreadyExists _ => "already_exists"
  | .notFailed _ => "not_failed"
  | .storage _ => "storage"

/-- The fault in words. -/
def message : JobFault → String
  | .notFound id => s!"job not found: {id}"
  | .notOwner id => s!"job {id} belongs to another account"
  | .alreadyExists id => s!"job already exists: {id}"
  | .notFailed id => s!"job {id} is not in a failed state"
  | .storage detail => s!"storage error: {detail}"

/-- The refusal that comes of the fault: a foreign job is not told from a missing one. -/
def refusal : JobFault → Refusal
  | .notFound id | .notOwner id => .notFound s!"job {id}"
  | .notFailed id => .invalidTransition s!"job {id} has not failed"
  | .alreadyExists id => .constraint s!"job {id} exists"
  | .storage detail => .storage detail

end JobFault

/-- The jobs, each identifier once, and how many finished ones are kept. -/
structure JobStore where
  jobs : List Job
  retention : Nat
  deriving Repr

namespace JobStore

/-- How many finished jobs are kept unless said otherwise. -/
def usualRetention : Nat := 1000

/-- A store without jobs. -/
def empty (retention : Nat) : JobStore := ⟨[], retention⟩

/-- The job of an identifier. -/
def find? (s : JobStore) (id : JobId) : Option Job := s.jobs.find? fun j => j.id == id

/-- The jobs with another one in the place of the job of its identifier. -/
def replace (jobs : List Job) (j : Job) : List Job :=
  jobs.map fun k => if k.id == j.id then j else k

/-- Adds a job with a new identifier. -/
def enqueue (s : JobStore) (j : Job) : Except JobFault JobStore :=
  match s.find? j.id with
  | some _ => .error (.alreadyExists j.id)
  | none => .ok { s with jobs := s.jobs ++ [j] }

/-- The job of an identifier, if there is one, for its owner. -/
def get (s : JobStore) (owner : UserId) (id : JobId) : Except JobFault (Option Job) :=
  match s.find? id with
  | none => .ok none
  | some j => if j.owner == owner then .ok (some j) else .error (.notOwner id)

/-- The first job was changed earlier, or has the smaller identifier if both were changed at one
time. -/
def isStaler (j k : Job) : Bool :=
  j.updatedAt.lt k.updatedAt || (j.updatedAt == k.updatedAt && j.id.toNat ≤ k.id.toNat)

/-- The jobs without the finished ones that are too many; those changed longest ago go first. -/
def prune (retention : Nat) (jobs : List Job) : List Job :=
  let finished := jobs.filter fun j => j.status.isTerminal
  let dropped := (finished.mergeSort isStaler).take (finished.length - retention)
  jobs.filter fun j => !dropped.any fun d => d.id == j.id

/-- Puts a job in the place of its earlier form. -/
def update (s : JobStore) (j : Job) : Except JobFault JobStore :=
  match s.find? j.id with
  | none => .error (.notFound j.id)
  | some _ =>
    let jobs := replace s.jobs j
    .ok { s with jobs := if j.status.isTerminal then prune s.retention jobs else jobs }

/-- The oldest of some jobs. -/
def oldest? : List Job → Option Job
  | [] => none
  | j :: js =>
    match oldest? js with
    | some k => if k.isBefore j then some k else some j
    | none => some j

/-- Claims the oldest job that is due. -/
def claimNext (s : JobStore) (now : Instant) : Option Job × JobStore :=
  match oldest? (s.jobs.filter fun j => j.isDue now) with
  | none => (none, s)
  | some j => (some (j.claim now), { s with jobs := replace s.jobs (j.claim now) })

/-- Puts a job back that has failed for good. -/
def retryFailed (s : JobStore) (owner : UserId) (id : JobId) (now : Instant) :
    Except JobFault (Job × JobStore) :=
  match s.find? id with
  | none => .error (.notFound id)
  | some j =>
    if j.owner != owner then .error (.notOwner id)
    else if j.status.isFailed then
      .ok (j.requeue now, { s with jobs := replace s.jobs (j.requeue now) })
    else .error (.notFailed id)

end JobStore

end Marketplace
