import Marketplace.Program.World
import Marketplace.Service.Shift
set_option autoImplicit false

/-!
# Rehearsals

A rehearsal is a world in which things go wrong as planned: calls fail the next time they are made,
the connections to the database may have been given up, and jobs may be played from a script instead
of being done.
-/

namespace Marketplace

/-- The next call of a name fails, or answers that there is nothing. -/
structure PlannedFault where
  call : String
  fault : Option StorageFault
  deriving DecidableEq, Repr

/-- The answer of a fault to a call, if the call can be answered so. -/
def PlannedFault.answer? (p : PlannedFault) (c : Call) : Option c.Reply :=
  match p.fault with
  | some f => c.failing? f
  | none => c.nothing?

/-- How jobs of a kind end, one after the other; `none` never does and runs into the limit. -/
structure Script where
  kind : String
  results : List (Option JobResult)
  /-- The limit of a run in milliseconds, if it is not the usual one. -/
  limit : Option Nat
  deriving Repr

/-- A world in which things go wrong as planned. -/
structure Rehearsal where
  world : World
  /-- The connections to the database have been given up. -/
  closed : Bool
  planned : List PlannedFault
  /-- The scripts by which jobs are played; without any, jobs are done. -/
  scripts : Option (List Script)
  /-- The usual limit of a run in milliseconds. -/
  limit : Nat
  /-- The identifiers of submitted jobs in order. -/
  submitted : List JobId
  deriving Repr

namespace Rehearsal

/-- A rehearsal in which nothing is planned. -/
def start (clock : Instant) (retention : Nat) : Rehearsal :=
  ⟨.start clock retention, false, [], none, ExecutorSettings.usual.limitMillis, []⟩

/-- Changes the world. -/
def onWorld (r : Rehearsal) (f : World → World) : Rehearsal := { r with world := f r.world }

/-- Sets the clock. -/
def setClock (t : Instant) (r : Rehearsal) : Rehearsal := r.onWorld fun w => { w with clock := t }

/-- Lets a microsecond pass. -/
def tick (r : Rehearsal) : Rehearsal :=
  r.onWorld fun w => { w with clock := (w.clock.plusNanos? 1000).getD w.clock }

/-- The first fault that is planned for a call of the name, and the others. -/
def takePlanned (name : String) : List PlannedFault → Option (PlannedFault × List PlannedFault)
  | [] => none
  | p :: ps =>
    if p.call == name then some (p, ps)
    else (takePlanned name ps).map fun r => (r.1, p :: r.2)

/-- Answers a call for which nothing is planned.  Time passes between two looks at the clock. -/
def handlePlain : Program.Handler Rehearsal := fun r c =>
  let r := match c with
    | .now => r.tick
    | .job (.enqueue j) => { r with submitted := r.submitted ++ [j.id] }
    | _ => r
  ((if r.closed then World.handleClosed else World.handle) r.world c).map fun a =>
    (a.1, { r with world := a.2 })

/-- Answers a call; what is planned for it comes first, and is used up. -/
def handle : Program.Handler Rehearsal := fun r c =>
  match c.name?.bind fun name => takePlanned name r.planned with
  | none => handlePlain r c
  | some (p, rest) =>
    let r := { r with planned := rest }
    match p.answer? c with
    | some a => some (a, r)
    | none => handlePlain r c

/-- The scripts with the next result of a kind taken out. -/
def advance (kind : String) (scripts : List Script) : List Script :=
  scripts.map fun s => if s.kind == kind then { s with results := s.results.drop 1 } else s

/-- Begins a job: plays it from its script, or does it. -/
def begin (j : Job) (r : Rehearsal) : Option (Effort × Rehearsal) :=
  match r.scripts with
  | none => ((Work.ofKind j.kind j).run handle r).map fun p => (.ends p.1, p.2)
  | some scripts =>
    (scripts.find? fun s => s.kind == j.kind.name).map fun s =>
      let limit := Span.ofMillis (s.limit.getD r.limit)
      let effort := match s.results with
        | [] => .ends (.success none)
        | some result :: _ => .ends result
        | none :: _ => .lasts limit (.timedOut limit)
      (effort, { r with scripts := some (advance s.kind scripts) })

/-- The site of rehearsals. -/
def site : Site Rehearsal := ⟨handle, setClock, begin⟩

end Rehearsal

end Marketplace
