import Marketplace.Program.Basic
set_option autoImplicit false

/-!
# The world that programs run in

The store, the jobs, the outbox and what else calls reach, all in memory.  The clock stands still
while a program runs; whoever runs programs moves it in between.
-/

namespace Marketplace

/-- What a path leads to. -/
inductive FileContent
  | text (s : String)
  /-- Bytes that are no text. -/
  | binary
  | directory
  deriving DecidableEq, Repr

/-- The content of a file of these bytes. -/
def FileContent.ofBytes (b : ByteArray) : FileContent :=
  match String.fromUTF8? b with
  | some s => .text s
  | none => .binary

/-- What reading the file gives. -/
def FileContent.read : FileContent → Except ReadFault String
  | .text s => .ok s
  | .binary => .error (.unreadable "stream did not contain valid UTF-8")
  | .directory => .error (.unreadable "Is a directory (os error 21)")

/-- All that calls reach. -/
structure World where
  store : Store
  jobs : JobStore
  outbox : Outbox
  clock : Instant
  /-- How many job identifiers have been given. -/
  issued : Nat
  files : Table String FileContent
  /-- The buyers whose orders somebody works on. -/
  locked : List UserId
  deriving Repr

namespace World

/-- A world in which nothing has happened yet. -/
def start (clock : Instant) (retention : Nat) : World :=
  ⟨.empty, .empty retention, .empty, clock, 0, .empty, []⟩

/-- What reading a file gives. -/
def read (w : World) (path : String) : Except ReadFault String :=
  if path.toList.contains '\x00' then
    .error (.unreadable "file name contained an unexpected NUL byte")
  else
    match w.files.get? path with
    | some f => f.read
    | none => .error .missing

/-- The milliseconds that the clock shows. -/
def millis (w : World) : Nat := (w.clock.seconds * 1000 + w.clock.nanos / 1000000).toNat

/-- Answers a call. -/
def handle : Program.Handler World
  | w, .store c => (c.step w.store w.clock).map fun r => (r.1, { w with store := r.2 })
  | w, .account id => some (.ok (w.store.accounts.get? id), w)
  | w, .remember a => some (.ok (), { w with store := w.store.remember a })
  | w, .job c =>
    let (r, jobs) := c.step w.jobs w.clock
    some (r, { w with jobs := jobs })
  | w, .send m =>
    let (r, outbox) := w.outbox.send m
    some (r, { w with outbox := outbox })
  | w, .now => some (w.clock, w)
  | w, .newJobId => some (.ofClock w.millis (w.issued + 1), { w with issued := w.issued + 1 })
  | w, .read path => some (w.read path, w)
  | w, .lock buyer =>
    if w.locked.contains buyer then none else some ((), { w with locked := buyer :: w.locked })
  | w, .unlock buyer => some ((), { w with locked := w.locked.erase buyer })
  | w, .discard => some ((), { w with store := w.store.discard })

/-- Answers a call where the connections to the database have been given up. -/
def handleClosed : Program.Handler World := fun w c =>
  match c.closed? with
  | some r => some (r, w)
  | none => w.handle c

end World

end Marketplace
