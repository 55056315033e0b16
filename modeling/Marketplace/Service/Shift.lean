import Marketplace.Job.Executor
import Marketplace.Service.Work
set_option autoImplicit false

/-!
# Shifts

A shift is an executor at work on a clock that is moved by hand.  The executor looks for jobs every
millisecond; it claims as many as it may and then begins them in the order of their claiming.  What
ends at once ends before the next jobs are claimed, and what takes time ends when the clock gets
there.
-/

namespace Marketplace

/-- What becomes of a job that is begun. -/
inductive Effort
  /-- It ends at once. -/
  | ends (result : JobResult)
  /-- It takes a length of time. -/
  | lasts (span : Span) (result : JobResult)
  deriving Repr

/-- Where shifts take place: how calls are answered, how the clock is set, and how a job is begun;
`none` if there is no work for its kind. -/
structure Site (τ : Type) where
  handle : Program.Handler τ
  setClock : Instant → τ → τ
  begin : Job → τ → Option (Effort × τ)

/-- A run that will end at a time. -/
structure PendingRun where
  job : Job
  started : Instant
  due : Instant
  result : JobResult
  /-- The executor that is at work now has claimed it. -/
  current : Bool
  deriving Repr

/-- A shift. -/
structure Shift (τ : Type) where
  state : τ
  executor : Option Executor
  pending : List PendingRun

namespace Shift

variable {τ : Type}

/-- A shift without an executor. -/
def idle (t : τ) : Shift τ := ⟨t, none, []⟩

/-- Makes a call; `none` if it has to wait. -/
def ask (site : Site τ) (s : Shift τ) (c : Call) : Option (c.Reply × Shift τ) :=
  (site.handle s.state c).map fun r => (r.1, { s with state := r.2 })

/-- What the clock shows. -/
def now (site : Site τ) (s : Shift τ) : Instant :=
  match s.ask site .now with
  | some (t, _) => t
  | none => ⟨0, 0⟩

/-- Changes the executor, if there is one. -/
def onExecutor (s : Shift τ) (f : Executor → Executor) : Shift τ :=
  { s with executor := s.executor.map f }

/-- Ends a run. -/
def conclude (site : Site τ) (s : Shift τ) (r : PendingRun) : Shift τ :=
  match (Work.conclude r.job r.started r.result).run.run site.handle s.state with
  | some (some o, t) =>
    let s := { s with state := t }
    if r.current then s.onExecutor (·.finish r.job.id o.job.status) else s
  | some (none, t) =>
    let s := { s with state := t }
    if r.current then s.onExecutor (·.abort r.job.id) else s
  | none => s

/-- Begins a claimed job. -/
def beginJob (site : Site τ) (s : Shift τ) (j : Job) : Shift τ :=
  let started := s.now site
  match site.begin j s.state with
  | none => s.conclude site ⟨j, started, started, Work.unhandled j, true⟩
  | some (.ends result, t) =>
    { s with state := t }.conclude site ⟨j, started, started, result, true⟩
  | some (.lasts span result, t) =>
    let due := (started.plusNanos? span.nanos).getD started
    { s with state := t, pending := s.pending ++ [⟨j, started, due, result, true⟩] }

/-- The jobs that the executor claims as long as it may and there are some, and whether it stopped
for want of workers. -/
def claimAll (site : Site τ) : Nat → Shift τ → List Job × Bool × Shift τ
  | 0, s => ([], false, s)
  | fuel + 1, s =>
    if s.executor.any Executor.mayClaim then
      match s.ask site (.job .claimNext) with
      | some (.ok (some j), s) =>
        let (js, full, s) := claimAll site fuel (s.onExecutor (·.claim j.id))
        (j :: js, full, s)
      | some (_, s) => ([], false, s)
      | none => ([], false, s)
    else ([], true, s)

/-- Claims and begins jobs until the executor has nothing to do or no worker to spare. -/
def settle (site : Site τ) : Nat → Shift τ → Shift τ
  | 0, s => s
  | fuel + 1, s =>
    let (js, full, s) := s.claimAll site (fuel + 1)
    let s := js.foldl (fun s j => s.beginJob site j) s
    if full && !js.isEmpty then settle site fuel s else s

/-- How many jobs may be begun at one time of the clock. -/
def settleFuel : Nat := 10000

/-- Ends the runs whose time has come, in the order of that time. -/
def concludeDue (site : Site τ) (s : Shift τ) : Shift τ :=
  let now := s.now site
  let (due, later) := s.pending.partition fun r => r.due.le now
  (due.mergeSort fun a b => a.due.le b.due).foldl (fun s r => s.conclude site r)
    { s with pending := later }

/-- The earlier of a time and one that may be missing. -/
def earlier (t : Instant) : Option Instant → Instant
  | none => t
  | some u => if u.le t then u else t

/-- The next time at which something may happen, and the end of the wait at the latest. -/
def nextTime (site : Site τ) (s : Shift τ) (target : Instant) : Instant :=
  let poll := if s.executor.any Executor.mayClaim then (s.now site).plusNanos? 1000000 else none
  s.pending.foldl (fun t r => earlier t (some r.due)) (earlier target poll)

/-- Lets the time pass up to a target. -/
def passUntil (site : Site τ) (target : Instant) : Nat → Shift τ → Shift τ
  | 0, s => s
  | fuel + 1, s =>
    let s := s.settle site settleFuel
    if target.le (s.now site) then s
    else
      let t := s.nextTime site target
      passUntil site target fuel
        ({ s with state := site.setClock t s.state }.concludeDue site)

/-- Lets so many milliseconds pass. -/
def pass (site : Site τ) (millis : Nat) (s : Shift τ) : Shift τ :=
  match (s.now site).plusNanos? (millis * 1000000) with
  | none => s
  | some target => s.passUntil site target (2 * millis + s.pending.length + settleFuel)

/-- Asks for a job of the owner every ten milliseconds until it has ended or the limit is over. -/
def await (site : Site τ) (owner : UserId) (id : JobId) :
    Nat → Nat → Shift τ → Option (Except JobFault Job × Shift τ)
  | 0, _, _ => none
  | fuel + 1, left, s =>
    match (JobService.status owner id).run.run site.handle s.state with
    | none => none
    | some (.error f, t) => some (.error f, { s with state := t })
    | some (.ok j, t) =>
      let s := { s with state := t }
      if j.status.isTerminal || left = 0 then some (.ok j, s)
      else await site owner id fuel (left - 10) (s.pass site 10)

/-- Waits for a job of the owner for so many milliseconds at most. -/
def awaitFor (site : Site τ) (owner : UserId) (id : JobId) (limit : Nat) (s : Shift τ) :
    Option (Except JobFault Job × Shift τ) :=
  s.await site owner id (limit / 10 + 2) limit

/-- The JSON form of the executor's counts, which are zero where there is none. -/
def statsJson (s : Shift τ) : Json.Value :=
  match s.executor with
  | some e => e.statsJson
  | none => Executor.statsJson ⟨0, [], 0, true, .zero⟩

/-- The executor has ended, or there is none. -/
def isOver (s : Shift τ) : Bool := s.executor.all Executor.hasEnded

/-- Waits until the executor has ended. -/
def passToEnd (site : Site τ) (s : Shift τ) : Shift τ :=
  (s.pending.mergeSort fun a b => a.due.le b.due).foldl
    (fun s r =>
      if s.isOver then s else s.passUntil site r.due (2 * s.pending.length + settleFuel)) s

/-- Puts an executor to work. -/
def start (s : Shift τ) (workers : Nat) : Shift τ :=
  { s with executor := Executor.start? workers }

/-- Lets the executor claim no more jobs, and forgets it; its runs go on. -/
def leave (s : Shift τ) : Shift τ :=
  { s with executor := none, pending := s.pending.map fun r => { r with current := false } }

/-- Lets the executor claim no more jobs, and waits for its end. -/
def shutdown (site : Site τ) (s : Shift τ) : Shift τ :=
  ((s.onExecutor Executor.stop).passToEnd site).leave

/-- What has come of claiming one job and running it. -/
inductive Executed
  /-- The job store did not answer. -/
  | fault (f : JobFault)
  /-- There was no job to claim. -/
  | nothing
  /-- The run broke down. -/
  | broken
  | outcome (o : Work.Outcome)

/-- Claims a job and runs it; what takes time lets the time pass. -/
def executeNext (site : Site τ) (s : Shift τ) : Option (Executed × Shift τ) :=
  match s.ask site (.job .claimNext) with
  | none => none
  | some (.error f, s) => some (.fault f, s)
  | some (.ok none, s) => some (.nothing, s)
  | some (.ok (some j), s) => do
    let started := s.now site
    let (result, s) := match site.begin j s.state with
      | none => (Work.unhandled j, s)
      | some (.ends r, t) => (r, { s with state := t })
      | some (.lasts d r, t) => (r, { s with state := t }.pass site (d.nanos / 1000000))
    let (o, t) ← (Work.conclude j started result).run.run site.handle s.state
    let s := { s with state := t }
    return (match o with
      | some o => (.outcome o, s)
      | none => (.broken, s))

/-- Waits for several jobs one after the other, each for so many milliseconds at most. -/
def awaitEach (site : Site τ) (limit : Nat) :
    List (UserId × JobId) → Shift τ → Option (List (Except JobFault Job) × Shift τ)
  | [], s => some ([], s)
  | (owner, id) :: rest, s => do
    let (r, s) ← s.awaitFor site owner id limit
    let (rs, s) ← awaitEach site limit rest s
    return (r :: rs, s)

end Shift

end Marketplace
