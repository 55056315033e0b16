import Marketplace.Table
set_option autoImplicit false

/-!
# Locks by key

A lock for every key that somebody holds or waits for.  The map from keys to slots does not keep a
slot alive: a slot lives as long as a task holds it or waits for it, and the next call of
`KeyedLocks.enter` forgets the dead ones.  Tasks get a slot in the order of their coming.
-/

namespace Marketplace

/-- A task that holds the slot of a key, or waits for it. -/
structure LockClaim (κ τ : Type) where
  task : τ
  key : κ
  slot : Nat
  holding : Bool
  deriving DecidableEq, Repr

/-- The slots of the keys, and who holds them or waits for them, in the order of coming. -/
structure KeyedLocks (κ τ : Type) where
  slots : Table κ Nat
  claims : List (LockClaim κ τ)
  /-- How many slots have been made. -/
  made : Nat
  deriving DecidableEq, Repr

namespace KeyedLocks

variable {κ τ : Type} [DecidableEq κ] [DecidableEq τ]

/-- Nobody holds anything. -/
def empty : KeyedLocks κ τ := ⟨.empty, [], 0⟩

/-- Somebody holds the slot or waits for it. -/
def isAlive (l : KeyedLocks κ τ) (slot : Nat) : Bool := l.claims.any fun c => c.slot == slot

/-- The locks without dead slots. -/
def prune (l : KeyedLocks κ τ) : KeyedLocks κ τ :=
  { l with slots := l.slots.filter fun _ n => l.isAlive n }

/-- A task comes for a key: dead slots are forgotten, and the task waits for the slot of the key,
which is made if there is none. -/
def enter (l : KeyedLocks κ τ) (task : τ) (key : κ) : KeyedLocks κ τ :=
  let l := l.prune
  match l.slots.get? key with
  | some n => { l with claims := l.claims ++ [⟨task, key, n, false⟩] }
  | none =>
    ⟨l.slots.insert key l.made, l.claims ++ [⟨task, key, l.made, false⟩], l.made + 1⟩

/-- Gives slots that nobody holds to those who wait for them; `taken` are the slots that are held or
have been passed. -/
def grant : List Nat → List (LockClaim κ τ) → List (LockClaim κ τ)
  | _, [] => []
  | taken, c :: cs =>
    if taken.contains c.slot then c :: grant taken cs
    else { c with holding := true } :: grant (c.slot :: taken) cs

/-- The slots that somebody holds. -/
def heldSlots (l : KeyedLocks κ τ) : List Nat := (l.claims.filter (·.holding)).map (·.slot)

/-- Every slot that nobody holds goes to the task that has waited for it longest. -/
def settle (l : KeyedLocks κ τ) : KeyedLocks κ τ :=
  { l with claims := grant l.heldSlots l.claims }

/-- A task gives back what it holds. -/
def release (l : KeyedLocks κ τ) (task : τ) : KeyedLocks κ τ :=
  { l with claims := l.claims.filter fun c => !(c.holding && c.task == task) }

/-- A task waits no longer. -/
def giveUp (l : KeyedLocks κ τ) (task : τ) : KeyedLocks κ τ :=
  { l with claims := l.claims.filter fun c => c.holding || c.task != task }

/-- The tasks that hold something. -/
def holders (l : KeyedLocks κ τ) : List τ := (l.claims.filter (·.holding)).map (·.task)

/-- The tasks that wait, in the order of coming. -/
def waiting (l : KeyedLocks κ τ) : List τ := (l.claims.filter fun c => !c.holding).map (·.task)

/-- How many keys are held or waited for. -/
def active (l : KeyedLocks κ τ) : Nat := (l.slots.filter fun _ n => l.isAlive n).size

end KeyedLocks

end Marketplace
