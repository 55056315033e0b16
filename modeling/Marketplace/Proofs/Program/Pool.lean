import Marketplace.Program.World
set_option autoImplicit false

/-!
# Programs among others

Any number of programs run at one time in one world, each a call at a time and in any order.  Two
calls are not done at one go: a commit shows the draft and then takes order items away, and deleting
contacts also clears orders of them; other programs may go on between the two halves
(`World.act`, `Remainder.finish`).  A program may be dropped before any of its calls, and what it
held is then given back.
-/

namespace Marketplace

/-- The second half of a call. -/
inductive Remainder
  /-- Takes away the order items whose listings are gone, and gives the draft back. -/
  | cascade
  /-- Takes deleted contacts off the orders that name them. -/
  | clear (doomed : Table ContactId Contact)

/-- Does the second half of a call. -/
def Remainder.finish : Remainder → World → World
  | cascade, w => { w with store := w.store.cascade.discard }
  | clear doomed, w =>
    { w with store := { w.store with book := w.store.book.clearContacts doomed } }

namespace World

/-- Answers a call and does the first half of it; most calls have no second half. -/
def act : (w : World) → (c : Call) → Option (c.Reply × World × Option Remainder)
  | w, .store (.draft .commit) =>
    match w.store.draft with
    | none => some (.error Store.noDraft, w, none)
    | some _ => some (.ok (), { w with store := w.store.publish }, some .cascade)
  | w, .store (.contacts (.delete user ids)) =>
    let doomed := w.store.book.ownContacts user ids
    some (.ok doomed.size,
      { w with store := { w.store with book := w.store.book.dropContacts doomed } },
      some (.clear doomed))
  | w, c => (w.handle c).map fun r => (r.1, r.2, none)

/-- Both halves of a call together are the call. -/
theorem handle_eq_act (w : World) (c : Call) :
    w.handle c = (w.act c).map fun r => (r.1, (r.2.2.map (·.finish r.2.1)).getD r.2.1) := by
  have hwhole : (w.handle c) = ((w.handle c).map fun r => (r.1, r.2, (none : Option Remainder))).map
      fun r => (r.1, (r.2.2.map (·.finish r.2.1)).getD r.2.1) := by
    cases w.handle c <;> rfl
  cases c with
  | store c =>
    cases c with
    | draft c =>
      cases c with
      | commit =>
        simp only [act, handle, StoreCall.step, DraftCall.step]
        cases w.store.draft <;> rfl
      | _ => exact hwhole
    | contacts c =>
      cases c with
      | delete user ids => rfl
      | _ => exact hwhole
    | _ => exact hwhole
  | _ => exact hwhole

end World

/-- A program on its way, with what it holds. -/
structure Activity where
  /-- What is left of the program. -/
  program : Program Unit
  /-- What is left of its last call. -/
  remainder : Option Remainder
  /-- It has a draft under way. -/
  drafting : Bool
  /-- The buyers whose orders nobody else may work on. -/
  locks : List UserId

namespace Activity

/-- A program that has not begun. -/
def start (p : Program Unit) : Activity := ⟨p, none, false, []⟩

/-- A program that is over and holds nothing. -/
def ended : Activity := start (.done ())

/-- Only who has a draft works on it, and only who holds a lock gives it back. -/
def allows (a : Activity) : Call → Bool
  | .store (.draft _) | .discard => a.drafting
  | .unlock buyer => a.locks.contains buyer
  | _ => true

/-- The activity has a draft under way after the call. -/
def draftingAfter (a : Activity) : Call → Bool
  | .store (.catalog .begin) => true
  | .discard => false
  | _ => a.drafting

/-- The locks that the activity holds after the call. -/
def locksAfter (a : Activity) : Call → List UserId
  | .lock buyer => buyer :: a.locks
  | .unlock buyer => a.locks.erase buyer
  | _ => a.locks

/-- The activity after the first half of a call. -/
def after (a : Activity) (c : Call) (p : Program Unit) (m : Option Remainder) : Activity :=
  ⟨p, m, a.draftingAfter c, a.locksAfter c⟩

/-- The activity after the second half of a call: a commit ends the work on the draft. -/
def finished (a : Activity) : Remainder → Activity
  | .cascade => { a with remainder := none, drafting := false }
  | .clear _ => { a with remainder := none }

/-- The world once the activity has been dropped. -/
def release (a : Activity) (w : World) : World :=
  { w with
    store := if a.drafting then w.store.discard else w.store
    locked := a.locks.foldl List.erase w.locked }

/-- What one activity does next, and what the world is like then. -/
inductive Step (w : World) (a : Activity) : World → Activity → Prop
  | call {c : Call} {next : c.Reply → Program Unit} {r : c.Reply} {w' : World}
      {m : Option Remainder} (hprogram : a.program = .call c next) (hwhole : a.remainder = none)
      (hallows : a.allows c = true) (hact : w.act c = some (r, w', m)) :
    Step w a w' (a.after c (next r) m)
  | finish {m : Remainder} (hhalf : a.remainder = some m) : Step w a (m.finish w) (a.finished m)
  | drop (hwhole : a.remainder = none) : Step w a (a.release w) ended

/-- The activity goes a step further, unless it is over or has to wait. -/
def advance? (w : World) (a : Activity) : Option (World × Activity) :=
  match a.remainder, a.program with
  | some m, _ => some (m.finish w, a.finished m)
  | none, .done _ => none
  | none, .call c next =>
    if a.allows c then (w.act c).map fun r => (r.2.1, a.after c (next r.1) r.2.2) else none

theorem step_of_advance? {w w' : World} {a a' : Activity} (h : a.advance? w = some (w', a')) :
    a.Step w w' a' := by
  simp only [advance?] at h
  split at h
  · rename_i hhalf
    cases h
    exact .finish hhalf
  · cases h
  · rename_i c next hwhole hprogram
    split at h
    · rename_i hallows
      obtain ⟨⟨r, v, m⟩, hact, heq⟩ := Option.map_eq_some_iff.mp h
      cases heq
      exact .call hprogram hwhole hallows hact
    · cases h

end Activity

/-- A world and the programs that are on their way in it. -/
structure Pool where
  world : World
  activities : List Activity

namespace Pool

/-- One thing that happens: an admitted program begins, one goes a step further, or the clock and
the files change. -/
inductive Step (admitted : Program Unit → Prop) : Pool → Pool → Prop
  | start {w : World} {as : List Activity} {p : Program Unit} (hp : admitted p) :
    Step admitted ⟨w, as⟩ ⟨w, as ++ [.start p]⟩
  | move {w w' : World} {a a' : Activity} (as bs : List Activity) (h : a.Step w w' a') :
    Step admitted ⟨w, as ++ a :: bs⟩ ⟨w', as ++ a' :: bs⟩
  | environment {w : World} {as : List Activity} (clock : Instant)
      (files : Table String FileContent) :
    Step admitted ⟨w, as⟩ ⟨{ w with clock := clock, files := files }, as⟩

/-- What happens from a world on in which nothing has happened yet. -/
inductive Reachable (admitted : Program Unit → Prop) : Pool → Prop
  | start (clock : Instant) (retention : Nat) : Reachable admitted ⟨.start clock retention, []⟩
  | step {P Q : Pool} (h : Reachable admitted P) (hst : P.Step admitted Q) : Reachable admitted Q

theorem Reachable.mono {admitted admitted' : Program Unit → Prop} {P : Pool}
    (h : P.Reachable admitted) (hmono : ∀ p, admitted p → admitted' p) : P.Reachable admitted' := by
  induction h with
  | start clock retention => exact .start clock retention
  | step _ hst ih =>
    refine ih.step ?_
    cases hst with
    | start hp => exact .start (hmono _ hp)
    | move as bs ha => exact .move as bs ha
    | environment clock files => exact .environment clock files

/-- Any admitted programs may begin first of all. -/
theorem Reachable.begin {admitted : Program Unit → Prop} (clock : Instant) (retention : Nat)
    {ps : List (Program Unit)} (hps : ∀ p ∈ ps, admitted p) :
    Reachable admitted ⟨.start clock retention, ps.map .start⟩ := by
  have hfrom : ∀ as, Reachable admitted ⟨.start clock retention, as⟩ →
      Reachable admitted ⟨.start clock retention, as ++ ps.map .start⟩ := by
    induction ps with
    | nil =>
      intro as has
      simpa using has
    | cons p ps ih =>
      intro as has
      have hnext := ih (fun q hq => hps q (by simp [hq])) _ (has.step (.start (hps p (by simp))))
      simpa using hnext
  exact hfrom [] (.start clock retention)

/-- The pool after steps of the activities at the given places, one after the other. -/
def play : List Nat → Pool → Option Pool
  | [], P => some P
  | i :: is, P =>
    P.activities[i]?.bind fun a =>
      (a.advance? P.world).bind fun r => play is ⟨r.1, P.activities.set i r.2⟩

theorem play_append (is js : List Nat) (P : Pool) :
    play (is ++ js) P = (play is P).bind (play js) := by
  induction is generalizing P with
  | nil => rfl
  | cons i is ih => simp only [List.cons_append, play, ih, Option.bind_assoc]

/-- A step of the activity at a place. -/
theorem Step.advance {admitted : Program Unit → Prop} {P : Pool} {i : Nat} {a : Activity}
    (ha : P.activities[i]? = some a) {r : World × Activity} (hr : a.advance? P.world = some r) :
    P.Step admitted ⟨r.1, P.activities.set i r.2⟩ := by
  obtain ⟨hi, ha⟩ := List.getElem?_eq_some_iff.mp ha
  have hsplit : P.activities = P.activities.take i ++ a :: P.activities.drop (i + 1) := by
    rw [← ha, List.getElem_cons_drop, List.take_append_drop]
  have hset : P.activities.set i r.2 =
      P.activities.take i ++ r.2 :: P.activities.drop (i + 1) := by
    rw [List.set_eq_take_append_cons_drop, if_pos hi]
  rw [hset]
  have hmove : Step admitted _ _ := .move (P.activities.take i) (P.activities.drop (i + 1))
    (Activity.step_of_advance? hr)
  rwa [← hsplit] at hmove

theorem Reachable.play {admitted : Program Unit → Prop} {P Q : Pool} {is : List Nat}
    (h : P.Reachable admitted) (hplay : Pool.play is P = some Q) : Q.Reachable admitted := by
  induction is generalizing P with
  | nil =>
    cases hplay
    exact h
  | cons i is ih =>
    simp only [Pool.play, Option.bind_eq_some_iff] at hplay
    obtain ⟨a, ha, r, hr, hrest⟩ := hplay
    exact ih (h.step (.advance ha hr)) hrest

theorem Step.play {admitted : Program Unit → Prop} {P Q : Pool} {i : Nat}
    (hplay : Pool.play [i] P = some Q) : P.Step admitted Q := by
  simp only [Pool.play, Option.bind_eq_some_iff] at hplay
  obtain ⟨a, ha, r, hr, hrest⟩ := hplay
  cases hrest
  exact .advance ha hr

/-- No commit is between its two halves. -/
def Quiet (P : Pool) : Prop := ∀ a ∈ P.activities, a.remainder ≠ some .cascade

/-- There is one draft at most, and it is that of the one activity that works on it; a commit
between its halves still has it. -/
structure Orderly (P : Pool) : Prop where
  drafting : P.activities.countP Activity.drafting = if P.world.store.draft.isSome then 1 else 0
  cascade : ∀ a ∈ P.activities, a.remainder = some .cascade → a.drafting = true

end Pool

end Marketplace
