import Marketplace.Job.Basic
set_option autoImplicit false

/-!
# The executor

The executor claims jobs as long as it has workers to spare, counts how they end, and after it has
been told to stop waits for those that still run.  Workers are permits: a claim takes one, the end
of a run gives it back.  There can be no more permits than `Executor.maxPermits`, and waiting for
the end takes their number modulo `2 ^ 32` at once.
-/

namespace Marketplace

/-- How an executor is set up. -/
structure ExecutorSettings where
  name : String
  /-- How many jobs run at once. -/
  workers : Nat
  /-- How long the executor rests between two looks for jobs. -/
  pollMillis : Nat
  /-- How long a run may take. -/
  limitMillis : Nat
  deriving DecidableEq, Repr

namespace ExecutorSettings

/-- The usual settings. -/
def usual : ExecutorSettings := ⟨"job-executor", 4, 100, 60000⟩

/-- The JSON form. -/
def toJson (s : ExecutorSettings) : Json.Value :=
  .object [("name", .text s.name), ("max_concurrent", .nat s.workers),
    ("poll_interval_ms", .nat s.pollMillis), ("default_timeout_ms", .nat s.limitMillis)]

end ExecutorSettings

/-- How many runs have ended, and how. -/
structure ExecutorStats where
  processed : Nat
  succeeded : Nat
  retried : Nat
  failed : Nat
  deriving DecidableEq, Repr

namespace ExecutorStats

/-- No run has ended. -/
def zero : ExecutorStats := ⟨0, 0, 0, 0⟩

/-- Counts a run that left its job with the status. -/
def count (s : ExecutorStats) (status : JobStatus) : ExecutorStats :=
  let s := { s with processed := s.processed + 1 }
  match status with
  | .succeeded => { s with succeeded := s.succeeded + 1 }
  | .failed _ _ => { s with failed := s.failed + 1 }
  | _ => { s with retried := s.retried + 1 }

end ExecutorStats

/-- An executor. -/
structure Executor where
  /-- How many jobs may run at once. -/
  workers : Nat
  /-- The claimed jobs that still run. -/
  running : List JobId
  /-- How many runs have broken down. -/
  broken : Nat
  stopping : Bool
  stats : ExecutorStats
  deriving DecidableEq, Repr

namespace Executor

/-- The greatest number of permits. -/
def maxPermits : Nat := Nat.pow 2 61 - 1

/-- An executor with so many workers, one at least; there is none with more workers than permits. -/
def start? (workers : Nat) : Option Executor :=
  if max workers 1 ≤ maxPermits then some ⟨max workers 1, [], 0, false, .zero⟩ else none

/-- The permits that are not taken. -/
def free (e : Executor) : Nat := e.workers - e.running.length

/-- The executor may claim a job. -/
def mayClaim (e : Executor) : Bool := !e.stopping && e.running.length < e.workers

/-- A job has been claimed. -/
def claim (e : Executor) (id : JobId) : Executor := { e with running := e.running ++ [id] }

/-- The run of a job has ended and left it with the status. -/
def finish (e : Executor) (id : JobId) (status : JobStatus) : Executor :=
  { e with running := e.running.erase id, stats := e.stats.count status }

/-- The run of a job has broken down. -/
def abort (e : Executor) (id : JobId) : Executor :=
  { e with running := e.running.erase id, broken := e.broken + 1 }

/-- The executor claims no more jobs. -/
def stop (e : Executor) : Executor := { e with stopping := true }

/-- The permits that the executor takes before it ends. -/
def permitsToEnd (e : Executor) : Nat := e.workers % Nat.pow 2 32

/-- The executor has ended. -/
def hasEnded (e : Executor) : Bool := e.stopping && e.permitsToEnd ≤ e.free

/-- The JSON form of the counts.  Runs that have broken down count as running for ever. -/
def statsJson (e : Executor) : Json.Value :=
  .object [("jobs_processed", .nat e.stats.processed), ("jobs_succeeded", .nat e.stats.succeeded),
    ("jobs_retried", .nat e.stats.retried), ("jobs_failed", .nat e.stats.failed),
    ("current_running", .nat (e.running.length + e.broken))]

end Executor

end Marketplace
