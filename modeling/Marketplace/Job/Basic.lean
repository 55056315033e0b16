import Marketplace.Job.Id
import Marketplace.Job.Payload
import Marketplace.Job.Retry
import Marketplace.Job.Status
import Marketplace.Time.Instant
set_option autoImplicit false

/-!
# Jobs

A job with its runs so far, and the steps that it takes: it is claimed, ends in one of three ways,
and may be put back after it failed for good.  Every step is given the time at which it happens.
-/

namespace Marketplace

open Json (Value Decoder)

/-- A run that has ended. -/
structure JobRun where
  attempt : Nat
  startedAt : Instant
  finishedAt : Instant
  error : Option String
  /-- Whole milliseconds, and none for a clock that went backwards. -/
  millis : Nat
  deriving DecidableEq, Repr

/-- A job. -/
structure Job where
  id : JobId
  /-- The account that submitted it, which alone may look at it. -/
  owner : UserId
  payload : JobPayload
  status : JobStatus
  policy : RetryPolicy
  /-- The runs that have been started since the job was submitted or put back. -/
  attempt : Nat
  createdAt : Instant
  updatedAt : Instant
  /-- The earliest time of the next run. -/
  scheduledAt : Option Instant
  /-- What the run that succeeded has to say. -/
  output : Option Value
  history : List JobRun
  deriving Repr

/-- How a run ends. -/
inductive JobResult
  | success (output : Option Value)
  /-- The job may be tried again. -/
  | failure (error : String)
  /-- The job must not be tried again. -/
  | fatal (reason : String)
  deriving Repr

namespace JobRun

/-- The JSON form. -/
def toJson (r : JobRun) : Value :=
  .object [("attempt", .nat r.attempt), ("started_at", r.startedAt.toJson),
    ("finished_at", r.finishedAt.toJson), ("error", .ofOption .text r.error),
    ("duration_ms", .nat r.millis)]

/-- Reads the JSON form. -/
def decoder : Decoder JobRun :=
  .record ⟨0, ⟨0, 0⟩, ⟨0, 0⟩, none, 0⟩ [
    .required "attempt" (.natural 32) fun v r => { r with attempt := v },
    .required "started_at" Instant.decoder fun v r => { r with startedAt := v },
    .required "finished_at" Instant.decoder fun v r => { r with finishedAt := v },
    .nullable "error" .text fun v r => { r with error := v },
    .required "duration_ms" (.natural 64) fun v r => { r with millis := v }]

end JobRun

namespace Job

/-- A new job. -/
def new (id : JobId) (now : Instant) (owner : UserId) (payload : JobPayload) : Job :=
  ⟨id, owner, payload, .pending, .usual, 0, now, now, none, none, []⟩

/-- The kind of work. -/
def kind (j : Job) : JobKind := j.payload.kind

/-- The time of the next run has come. -/
def isReady (j : Job) (now : Instant) : Bool := j.scheduledAt.all fun t => t.le now

/-- The job may be claimed. -/
def isDue (j : Job) (now : Instant) : Bool := j.status.isClaimable && j.isReady now

/-- The job after it has been claimed. -/
def claim (j : Job) (now : Instant) : Job :=
  { j with status := .running, attempt := j.attempt + 1, updatedAt := now }

/-- The run that ends now. -/
def run (j : Job) (started now : Instant) (error : Option String) : JobRun :=
  ⟨j.attempt, started, now, error, (started.nanosBetween now / nanosPerMilli).toNat⟩

/-- The job with the run that ends now. -/
def record (j : Job) (started now : Instant) (error : Option String) : Job :=
  { j with updatedAt := now, history := j.history ++ [j.run started now error] }

/-- The job after a run that succeeded. -/
def succeed (j : Job) (started now : Instant) (output : Option Value) : Job :=
  { j.record started now none with status := .succeeded, output := output, scheduledAt := none }

/-- The longest rest that the schedule can express, in nanoseconds; after a longer one the next run
is due at once. -/
def maxRest : Nat := (Nat.pow 2 63 - 1) * nanosPerMilli

/-- The time of the run after a rest, unless it lies beyond the calendar. -/
def timeAfter (now : Instant) (rest : Span) : Option Instant :=
  now.plusNanos? (if rest.nanos ≤ maxRest then rest.nanos else 0)

/-- The job after a run that failed: it waits for the next run as long as its policy allows one.  A
next run beyond the calendar cannot be scheduled, and then there is no such job. -/
def fail (j : Job) (started now : Instant) (error : String) : Option Job :=
  let k := j.record started now (some error)
  if j.policy.allowsAnother j.attempt then
    (timeAfter now (j.policy.delayAfter j.attempt)).map fun t =>
      { k with scheduledAt := some t, status := .retrying error j.attempt }
  else some { k with status := .failed error j.attempt }

/-- The job after a run whose failure is final. -/
def abandon (j : Job) (started now : Instant) (reason : String) : Job :=
  { j.record started now (some reason) with
    status := .failed reason j.attempt, scheduledAt := none }

/-- The job after a run with this result. -/
def finish (j : Job) (started now : Instant) : JobResult → Option Job
  | .success output => some (j.succeed started now output)
  | .failure error => j.fail started now error
  | .fatal reason => some (j.abandon started now reason)

/-- The job, put back with all its runs before it. -/
def requeue (j : Job) (now : Instant) : Job :=
  { j with status := .pending, attempt := 0, scheduledAt := none, updatedAt := now }

/-- Older jobs come first, and of two with one time the one with the smaller identifier. -/
def isBefore (j k : Job) : Bool :=
  j.createdAt.lt k.createdAt || (j.createdAt == k.createdAt && j.id.toNat < k.id.toNat)

/-- The JSON form. -/
def toJson (j : Job) : Value :=
  .object [("id", j.id.toJson), ("owner", j.owner.toJson), ("payload", j.payload.toJson),
    ("status", j.status.toJson), ("retry_policy", j.policy.toJson), ("attempt", .nat j.attempt),
    ("created_at", j.createdAt.toJson), ("updated_at", j.updatedAt.toJson),
    ("scheduled_at", .ofOption Instant.toJson j.scheduledAt),
    ("output", .ofOption (fun v => v) j.output),
    ("history", .array (j.history.map JobRun.toJson))]

/-- Reads the JSON form. -/
def decoder : Decoder Job :=
  .record (new (.ofNat 0) ⟨0, 0⟩ ⟨0⟩ (.notifyOrderPlaced ⟨0⟩ ⟨0⟩)) [
    .required "id" JobId.decoder fun v j => { j with id := v },
    .required "owner" Id.decoder fun v j => { j with owner := v },
    .required "payload" JobPayload.decoder fun v j => { j with payload := v },
    .required "status" JobStatus.decoder fun v j => { j with status := v },
    .required "retry_policy" RetryPolicy.decoder fun v j => { j with policy := v },
    .required "attempt" (.natural 32) fun v j => { j with attempt := v },
    .required "created_at" Instant.decoder fun v j => { j with createdAt := v },
    .required "updated_at" Instant.decoder fun v j => { j with updatedAt := v },
    .nullable "scheduled_at" Instant.decoder fun v j => { j with scheduledAt := v },
    .nullable "output" .value fun v j => { j with output := v },
    .required "history" (.list JobRun.decoder) fun v j => { j with history := v }]

/-- What clients see of a job. -/
def view (j : Job) : Value :=
  .object [("id", j.id.toJson), ("kind", j.kind.toJson), ("state", .text j.status.label),
    ("attempt", .nat j.attempt), ("max_attempts", .nat j.policy.maxAttempts),
    ("error", .ofOption .text j.status.error?), ("output", .ofOption (fun v => v) j.output),
    ("created_at", j.createdAt.toJson), ("updated_at", j.updatedAt.toJson),
    ("scheduled_at", .ofOption Instant.toJson j.scheduledAt)]

end Job

end Marketplace
