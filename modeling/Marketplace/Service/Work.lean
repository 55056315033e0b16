import Marketplace.Service.Import
import Marketplace.Service.Jobs
import Marketplace.Service.Notify
set_option autoImplicit false

/-!
# Doing the work of jobs

Each kind of job has work that it does.  A claimed job is run once, and its outcome goes back to the
job store.
-/

namespace Marketplace

namespace JobResult

/-- The result of a run that took longer than its limit. -/
def timedOut (limit : Span) : JobResult := .failure s!"timed out after {limit.secondsText}s"

end JobResult

namespace Work

/-- The result of work that was given a job of another kind. -/
def unexpected (j : Job) : JobResult := .fatal s!"unexpected payload for {j.kind.name}"

/-- Imports a price list for a shop account. -/
def importList (j : Job) : Program JobResult :=
  match j.payload with
  | .importPriceList source user => do
    match ← Program.ask (.account user) with
    | .error r => pure (.failure r.message)
    | .ok a =>
      if a.any fun a => a.type = .shop then
        match ← (Importer.importFrom source user).run with
        | .ok summary => pure (.success (some summary.toJson))
        | .error f => pure (if f.isTransient then .failure f.message else .fatal f.message)
      else pure (.fatal (ImportFault.permissionDenied s!"account {user} is not a shop").message)
  | _ => pure (unexpected j)

/-- Tells people of a placed order; who could not be reached is tried again with all others. -/
def notifyPlaced (j : Job) : Program JobResult :=
  match j.payload with
  | .notifyOrderPlaced buyer order => do
    match ← (Notify.order buyer order).run with
    | .ok report =>
      pure (if report.failed.isEmpty then .success (some report.toJson)
        else .failure ("delivery failed for " ++ ", ".intercalate report.failed))
    | .error r => pure (if r.isTransient then .failure r.message else .fatal r.message)
  | _ => pure (unexpected j)

/-- The work of each kind of job. -/
def ofKind : JobKind → Job → Program JobResult
  | .importPriceList => importList
  | .notifyOrderPlaced => notifyPlaced

/-- How a run has gone: well, or the error; and the job afterwards. -/
structure Outcome where
  result : Except String Unit
  job : Job

/-- A job cannot be run again at a time beyond the calendar, and then the run itself breaks down. -/
abbrev Run (α : Type) := OptionT Program α

/-- Hands a job that has been run back to the job store. -/
def report (j : Job) (result : Except String Unit) : Program Outcome := do
  match ← Program.ask (.job (.update j)) with
  | .ok _ => pure ⟨result, j⟩
  | .error f => pure ⟨.error f.message, j⟩

/-- What the result says about the run. -/
def verdict : JobResult → Except String Unit
  | .success _ => .ok ()
  | .failure e => .error e
  | .fatal r => .error r

/-- Ends the run of a job that started at a time. -/
def conclude (j : Job) (started : Instant) (result : JobResult) : Run Outcome :=
  OptionT.mk do
    let ended ← Program.ask .now
    match j.finish started ended result with
    | none => pure none
    | some j => some <$> report j (verdict result)

/-- The result of a job for whose kind there is no work. -/
def unhandled (j : Job) : JobResult := .fatal s!"no handler for job kind: {j.kind.name}"

/-- Runs a claimed job once.  A job without work for its kind fails for good. -/
def execute (work? : Option (Job → Program JobResult)) (j : Job) : Run Outcome := do
  let started ← OptionT.lift (Program.ask .now)
  match work? with
  | none => conclude j started (unhandled j)
  | some work =>
    let result ← OptionT.lift (work j)
    conclude j started result

/-- Claims a job and runs it once; the answer is the claimed job with what has become of the run. -/
def turn (work? : JobKind → Option (Job → Program JobResult)) :
    Program (Option (Job × Option Outcome)) := do
  match ← Program.ask (.job .claimNext) with
  | .ok (some j) =>
    let outcome ← (execute (work? j.kind) j).run
    pure (some (j, outcome))
  | .ok none | .error _ => pure none

end Work

end Marketplace
