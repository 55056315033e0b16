import Marketplace.Program.World
import Marketplace.Server.Answer
import Marketplace.Server.Settings
import Marketplace.Service.Shift
set_option autoImplicit false

/-!
# The running server

A server answers requests one after the other, and between them its executor does the jobs that have
been submitted.
-/

namespace Marketplace

/-- The place where the server works: calls reach the world, and jobs are done in it. -/
def World.site : Site World :=
  ⟨World.handle, fun t w => { w with clock := t },
    fun j w => ((Work.ofKind j.kind j).run World.handle w).map fun r => (.ends r.1, r.2)⟩

namespace Settings

/-- The world of a server with these settings.  A host without a network reaches no mail relay. -/
def world (s : Settings) (clock : Instant) : World :=
  let w := World.start clock JobStore.usualRetention
  { w with outbox := { w.outbox with closed := s.relay.isSome } }

/-- A server with these settings, at a place where it works. -/
def server {τ : Type} (s : Settings) (t : τ) : Shift τ := (Shift.idle t).start s.workers

end Settings

/-- A request and the time at which it comes in. -/
structure Arrival where
  /-- The clock stays where it is if no time is given. -/
  time : Option Instant
  request : HttpRequest
  deriving DecidableEq, Repr

/-- Reads the JSON form of an arrival, in which the time stands among the members of the request. -/
def Arrival.decoder : Json.Decoder Arrival :=
  let time : Json.Decoder.Field Arrival :=
    .nullable "at" Instant.decoder fun v a => { a with time := v }
  .embedding ⟨none, .blank⟩ [time] HttpRequest.decoder fun a r => { a with request := r }

namespace Shift

variable {τ : Type}

/-- Answers a request; `none` if it has to wait. -/
def respond (site : Site τ) (secret : String) (r : HttpRequest) (s : Shift τ) :
    Option (HttpResponse × Shift τ) :=
  ((r.answer secret s.statsJson).run site.handle s.state).map fun a =>
    (a.1, { s with state := a.2 })

/-- Sets the clock forward and does what has become due. -/
def advance (site : Site τ) (t : Instant) (s : Shift τ) : Shift τ :=
  let s := if (s.now site).lt t then { s with state := site.setClock t s.state } else s
  (s.concludeDue site).settle site settleFuel

/-- Answers a request that comes in, and does the jobs that it submits. -/
def receive (site : Site τ) (secret : String) (a : Arrival) (s : Shift τ) :
    Option (HttpResponse × Shift τ) :=
  let s := match a.time with
    | some t => s.advance site t
    | none => s
  (s.respond site secret a.request).map fun r => (r.1, r.2.settle site settleFuel)

end Shift

end Marketplace
