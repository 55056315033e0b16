import Marketplace.Service.Basic
set_option autoImplicit false

/-!
# Submitting jobs and asking for them

An account sees its own jobs only; others are not told from missing ones.
-/

namespace Marketplace

/-- A program that concerns jobs. -/
abbrev JobService (α : Type) := ExceptT JobFault Program α

namespace JobService

/-- Calls the job store. -/
def call (c : JobCall) : JobService c.Result := ExceptT.mk (Program.ask (.job c))

/-- Hides whether a job is missing or foreign. -/
def hideForeign : JobFault → JobFault
  | .notOwner id => .notFound id
  | f => f

/-- Submits a job. -/
def submit (j : Job) : JobService JobId := call (.enqueue j)

/-- A job of the owner. -/
def status (owner : UserId) (id : JobId) : JobService Job :=
  ExceptT.mk ((Program.ask (.job (.get owner id))).bind fun r => .done (
    match r with
    | .ok (some j) => .ok j
    | .ok none => .error (.notFound id)
    | .error f => .error (hideForeign f)))

/-- Puts a job of the owner back that has failed. -/
def retry (owner : UserId) (id : JobId) : JobService Job :=
  ExceptT.mk ((Program.ask (.job (.retryFailed owner id))).bind fun r =>
    .done (r.mapError hideForeign))

/-- A new job of an account. -/
def create (owner : UserId) (payload : JobPayload) : Program Job := do
  let now ← Program.ask .now
  let id ← Program.ask .newJobId
  pure (Job.new id now owner payload)

/-- The program as a service. -/
def toService {α : Type} (x : JobService α) : Service α :=
  ExceptT.mk (Program.bind x.run fun r => .done (r.mapError JobFault.refusal))

end JobService

end Marketplace
