import Mathlib.Logic.Relation
import Marketplace.Proofs.Locks.Exclusion
import Marketplace.Proofs.Program.Locks
set_option autoImplicit false

/-!
# The locks of buyers are locks by key

Programs that work on the orders of a buyer ask the world for the lock of the buyer, and the world
knows no more than which locks are held (`World.locked`).  Locks by key know also who waits, and in
which slot.  The two agree in both directions.

* Whatever tasks do with locks by key, the world can follow: who comes or waits no longer leaves it
  as it is, who gets a slot is answered by it, and who gives a slot back gives the lock back
  (`KeyedLocks.Step.followed`, `KeyedLocks.Reachable.followed`).  A waiting task can get its slot
  just when the world answers (`KeyedLocks.Sound.answers_lock_iff`).
* Whatever programs do with the locks of buyers, tasks at their places can do with locks by key
  (`Pool.Reachable.lockedAs`).  So no lock is ever held in a world that locks by key would refuse.
-/

namespace Marketplace

/-! ## The keys that are held -/

namespace KeyedLocks

variable {κ τ : Type} {l l' : KeyedLocks κ τ} {c : LockClaim κ τ} {as bs : List (LockClaim κ τ)}

/-- The keys that somebody holds.  This is all that the world remembers of locks by key: neither
slots nor those who wait. -/
def heldKeys (l : KeyedLocks κ τ) : List κ := (l.claims.filter (·.holding)).map (·.key)

theorem mem_heldKeys {key : κ} :
    key ∈ l.heldKeys ↔ ∃ c ∈ l.claims, c.holding = true ∧ c.key = key := by
  simp only [heldKeys, List.mem_map, List.mem_filter, and_assoc]

/-- The task holds the key or waits for it. -/
def Claimed (l : KeyedLocks κ τ) (task : τ) (key : κ) : Prop :=
  ∃ c ∈ l.claims, c.task = task ∧ c.key = key

/-- Who comes last claims besides what has been claimed. -/
theorem claimed_concat_iff {task : τ} {key : κ} (hclaims : l'.claims = l.claims ++ [c]) :
    l'.Claimed task key ↔ l.Claimed task key ∨ c.task = task ∧ c.key = key := by
  simp only [Claimed, hclaims, List.mem_append, List.mem_singleton, or_and_right, exists_or,
    exists_eq_left]

theorem claimed_filter_iff {task : τ} {key : κ} {p : τ → κ → Bool} :
    Claimed { l with claims := l.claims.filter fun c => p c.task c.key } task key ↔
      l.Claimed task key ∧ p task key = true := by
  simp only [Claimed, List.mem_filter]
  constructor
  · rintro ⟨c, ⟨hc, hp⟩, rfl, rfl⟩
    exact ⟨⟨c, hc, rfl, rfl⟩, hp⟩
  · rintro ⟨⟨c, hc, rfl, rfl⟩, hp⟩
    exact ⟨c, ⟨hc, hp⟩, rfl, rfl⟩

/-- Where a claim stands makes no difference to what the others hold. -/
theorem heldKeys_perm (hclaims : l.claims = as ++ c :: bs) :
    l.heldKeys.Perm (heldKeys { l with claims := c :: (as ++ bs) }) := by
  rw [heldKeys, hclaims]
  exact (List.perm_middle.filter _).map _

/-- A claim that waits holds nothing, so taking it away leaves the held keys, -/
theorem heldKeys_of_waiting (hclaims : l.claims = as ++ c :: bs) (hwaiting : c.holding = false) :
    l.heldKeys.Perm (heldKeys { l with claims := as ++ bs }) := by
  refine (heldKeys_perm hclaims).trans ?_
  simp [heldKeys, hwaiting]

/-- and one that holds its key holds one more than all the others do. -/
theorem heldKeys_of_holding (hclaims : l.claims = as ++ c :: bs) (hholding : c.holding = true) :
    l.heldKeys.Perm (c.key :: heldKeys { l with claims := as ++ bs }) := by
  refine (heldKeys_perm hclaims).trans ?_
  simp [heldKeys, hholding]

/-- Whoever comes waits first, even for a key that is free. -/
theorem heldKeys_enter [DecidableEq κ] (l : KeyedLocks κ τ) (task : τ) (key : κ) :
    (l.enter task key).heldKeys = l.heldKeys := by
  rcases enter_cases l task key with ⟨n, -, heq⟩ | ⟨-, heq⟩ <;> simp [heq, heldKeys]

end KeyedLocks

/-! ## The world follows locks by key -/

namespace World

variable {w w' : World}

/-- The locks that are held in the world are the keys that are held. -/
def LockedBy {τ : Type} (w : World) (l : KeyedLocks UserId τ) : Prop := w.locked.Perm l.heldKeys

/-- What the world sees of one thing that a task does with locks: nothing, or one call.  Only a lock
that is held is given back. -/
inductive LockStep (w : World) : World → Prop
  | stay : LockStep w w
  | lock {w' : World} {buyer : UserId} (hanswer : w.handle (.lock buyer) = some ((), w')) :
    LockStep w w'
  | unlock {w' : World} {buyer : UserId} (hheld : buyer ∈ w.locked)
      (hanswer : w.handle (.unlock buyer) = some ((), w')) : LockStep w w'

/-- A lock that nobody has is given, -/
theorem handle_lock_of_free {buyer : UserId} (hfree : buyer ∉ w.locked) :
    w.handle (.lock buyer) = some ((), { w with locked := buyer :: w.locked }) := by
  have hcontains : w.locked.contains buyer = false := by simpa using hfree
  simp only [handle, hcontains, Bool.false_eq_true, if_false]

/-- and one that somebody has is not answered for: this is how a call waits. -/
theorem handle_lock_of_held {buyer : UserId} (hheld : buyer ∈ w.locked) :
    w.handle (.lock buyer) = none := by
  have hcontains : w.locked.contains buyer = true := by simpa using hheld
  simp only [handle, hcontains, if_true]

end World

namespace KeyedLocks

variable {τ : Type} {l l' : KeyedLocks UserId τ} {c : LockClaim UserId τ} {w : World}

/-- A task that waits for a key can get its slot just when the world gives the lock. -/
theorem Sound.answers_lock_iff (h : l.Sound) (hw : w.LockedBy l) (hc : c ∈ l.claims) :
    (w.handle (.lock c.key)).isSome = true ↔ c.slot ∉ l.heldSlots := by
  have hheld : c.key ∈ w.locked ↔ c.slot ∈ l.heldSlots := by
    rw [hw.mem_iff, mem_heldKeys, h.mem_heldSlots_iff hc]
  rw [← hheld]
  by_cases hkey : c.key ∈ w.locked
  · simp [World.handle_lock_of_held hkey, hkey]
  · simp [World.handle_lock_of_free hkey, hkey]

/-- The world can follow what one task does with locks by key. -/
theorem Step.followed (hst : l.Step l') (h : l.Sound) (hw : w.LockedBy l) :
    ∃ w', w.LockStep w' ∧ w'.LockedBy l' := by
  cases hst with
  | enter task key =>
    refine ⟨w, .stay, ?_⟩
    rw [World.LockedBy, heldKeys_enter]
    exact hw
  | @acquire as bs c hclaims hfree =>
    have hc : c ∈ l.claims := by simp [hclaims]
    have hkey : c.key ∉ w.locked := by
      intro hmem
      have hanswers := (h.answers_lock_iff hw hc).mpr hfree
      rw [World.handle_lock_of_held hmem] at hanswers
      cases hanswers
    have hwaiting : c.holding = false :=
      eq_false_of_ne_true fun hholding => hfree (mem_heldSlots.mpr ⟨c, hc, hholding, rfl⟩)
    refine ⟨_, .lock (World.handle_lock_of_free hkey), ?_⟩
    have hothers := hw.trans (heldKeys_of_waiting hclaims hwaiting)
    exact (hothers.cons c.key).trans (heldKeys_of_holding
      (l := { l with claims := as ++ { c with holding := true } :: bs }) rfl rfl).symm
  | @release as bs c hclaims hholding =>
    have hkey : c.key ∈ w.locked :=
      hw.mem_iff.mpr (mem_heldKeys.mpr ⟨c, by simp [hclaims], hholding, rfl⟩)
    refine ⟨_, .unlock hkey rfl, ?_⟩
    have hrest := (hw.trans (heldKeys_of_holding hclaims hholding)).erase c.key
    rwa [List.erase_cons_head] at hrest
  | giveUp hclaims hwaiting =>
    exact ⟨w, .stay, hw.trans (heldKeys_of_waiting hclaims hwaiting)⟩

/-- The world can follow whatever tasks do with locks by key, from when no lock is held on. -/
theorem Reachable.followed (h : l.Reachable) (hw : w.locked = []) :
    ∃ w', Relation.ReflTransGen World.LockStep w w' ∧ w'.LockedBy l := by
  induction h with
  | empty =>
    refine ⟨w, .refl, ?_⟩
    rw [World.LockedBy, hw]
    exact .nil
  | step hl hst ih =>
    obtain ⟨v, hrun, hv⟩ := ih
    obtain ⟨w', hstep, hw'⟩ := hst.followed hl.sound hv
    exact ⟨w', hrun.tail hstep, hw'⟩

/-- A task that comes for a key that nobody holds can have it at once. -/
theorem Reachable.exists_granted (h : l.Reachable) (task : τ) {key : UserId}
    (hfree : ∀ c ∈ l.claims, c.holding = true → c.key ≠ key) :
    ∃ l' : KeyedLocks UserId τ, l'.Reachable ∧
      ∃ n, l'.claims = l.claims ++ [⟨task, key, n, true⟩] := by
  obtain ⟨n, hclaims⟩ : ∃ n, (l.enter task key).claims = l.claims ++ [⟨task, key, n, false⟩] := by
    rcases enter_cases l task key with ⟨n, -, heq⟩ | ⟨-, heq⟩ <;> rw [heq]
    · exact ⟨n, rfl⟩
    · exact ⟨l.made, rfl⟩
  have hentered := h.enter task key
  have hslot : n ∉ (l.enter task key).heldSlots := by
    intro hheld
    obtain ⟨d, hd, hholding, hkey⟩ :=
      (hentered.sound.mem_heldSlots_iff (c := ⟨task, key, n, false⟩) (by simp [hclaims])).mp hheld
    rw [hclaims, List.mem_append, List.mem_singleton] at hd
    rcases hd with hd | rfl
    · exact hfree d hd hholding hkey
    · cases hholding
  exact ⟨_, hentered.step (.acquire hclaims hslot), n, rfl⟩

end KeyedLocks

/-! ## Locks by key follow programs -/

/-- A step of an activity takes a lock that nobody holds, or keeps some of the locks that it has:
all of them, all but one, or none when it is dropped. -/
theorem Activity.Step.locks_cases {w w' : World} {a a' : Activity} (h : a.Step w w' a')
    (hnodup : a.locks.Nodup) :
    (∃ buyer, buyer ∉ w.locked ∧ a'.locks = buyer :: a.locks) ∨
      ∃ p : UserId → Bool, a'.locks = a.locks.filter p := by
  have hall : a.locks = a.locks.filter fun _ => true := by simp
  cases h with
  | @call c next r w' m hprogram hwhole hallows hact =>
    cases c with
    | lock buyer =>
      have hfree : buyer ∉ w.locked := by
        intro hheld
        simp only [World.act, World.handle_lock_of_held hheld] at hact
        cases hact
      exact .inl ⟨buyer, hfree, rfl⟩
    | unlock buyer => exact .inr ⟨(· != buyer), hnodup.erase_eq_filter buyer⟩
    | _ => exact .inr ⟨_, hall⟩
  | @finish m hhalf => cases m <;> exact .inr ⟨_, hall⟩
  | drop => exact .inr ⟨fun _ => false, by simp [ended, start]⟩

namespace Pool

variable {admitted : Program Unit → Prop} {P Q : Pool} {l l' : KeyedLocks UserId Nat}
  {w w' : World} {as bs : List Activity} {a a' : Activity}

/-- Every task holds the locks of the activity at its place, and nobody waits: an activity whose
next call the world does not answer has not made it yet. -/
structure LockedAs (P : Pool) (l : KeyedLocks UserId Nat) : Prop where
  holding : ∀ c ∈ l.claims, c.holding = true
  locks : ∀ i buyer, l.Claimed i buyer ↔ ∃ a, P.activities[i]? = some a ∧ buyer ∈ a.locks

/-- The world has a lock just if one of the activities has it. -/
theorem Reachable.mem_locked_iff (h : P.Reachable admitted) {buyer : UserId} :
    buyer ∈ P.world.locked ↔
      ∃ (i : Nat) (a : Activity), P.activities[i]? = some a ∧ buyer ∈ a.locks := by
  rw [← List.count_pos_iff, ← (h.count_held buyer).1, List.count_pos_iff, held, List.mem_flatMap]
  constructor
  · rintro ⟨a, ha, hbuyer⟩
    obtain ⟨i, hi⟩ := List.mem_iff_getElem?.mp ha
    exact ⟨i, a, hi, hbuyer⟩
  · rintro ⟨i, a, hi, hbuyer⟩
    exact ⟨a, List.mem_of_getElem? hi, hbuyer⟩

/-- An activity holds a lock once at most. -/
theorem Reachable.nodup_locks (h : Reachable admitted ⟨w, as ++ a :: bs⟩) : a.locks.Nodup := by
  refine List.nodup_iff_count_le_one.mpr fun buyer => ?_
  have hcount := h.count_held buyer
  rw [held_append] at hcount
  simp only [List.count_append] at hcount
  omega

namespace LockedAs

/-- The tasks hold just the locks that are held in the world. -/
theorem lockedBy (h : P.LockedAs l) (hP : P.Reachable admitted) (hl : l.Reachable) :
    P.world.LockedBy l := by
  have hlocked : P.world.locked.Nodup :=
    List.nodup_iff_count_le_one.mpr fun buyer => (hP.count_held buyer).2
  refine (List.perm_ext_iff_of_nodup hlocked hl.sound.nodup_heldKeys).mpr fun buyer => ?_
  rw [hP.mem_locked_iff]
  simp only [← h.locks]
  constructor
  · rintro ⟨i, c, hc, -, hkey⟩
    exact KeyedLocks.mem_heldKeys.mpr ⟨c, hc, h.holding c hc, hkey⟩
  · intro hmem
    obtain ⟨c, hc, -, hkey⟩ := KeyedLocks.mem_heldKeys.mp hmem
    exact ⟨c.task, c, hc, rfl, hkey⟩

/-- One activity goes a step further, and the task at its place does what it does. -/
theorem move (h : LockedAs ⟨w, as ++ a :: bs⟩ l) (hholding : ∀ c ∈ l'.claims, c.holding = true)
    (hothers : ∀ i buyer, i ≠ as.length → (l'.Claimed i buyer ↔ l.Claimed i buyer))
    (hmine : ∀ buyer, l'.Claimed as.length buyer ↔ buyer ∈ a'.locks) :
    LockedAs ⟨w', as ++ a' :: bs⟩ l' where
  holding := hholding
  locks := by
    intro i buyer
    by_cases hi : i = as.length
    · subst hi
      simp [hmine]
    · have hsame : (as ++ a' :: bs)[i]? = (as ++ a :: bs)[i]? := by
        rcases Nat.lt_or_gt_of_ne hi with hbefore | hafter
        · rw [List.getElem?_append_left hbefore, List.getElem?_append_left hbefore]
        · obtain ⟨n, rfl⟩ := Nat.exists_eq_add_of_lt hafter
          rw [Nat.add_assoc, List.getElem?_append_right (Nat.le_add_right _ _),
            List.getElem?_append_right (Nat.le_add_right _ _), Nat.add_sub_cancel_left,
            List.getElem?_cons_succ, List.getElem?_cons_succ]
      rw [hothers i buyer hi, h.locks, hsame]

/-- What the task at the place of an activity holds. -/
theorem claimed_iff (h : LockedAs ⟨w, as ++ a :: bs⟩ l) (buyer : UserId) :
    l.Claimed as.length buyer ↔ buyer ∈ a.locks := by
  rw [h.locks]
  simp

/-- Locks by key can follow what happens in a pool. -/
theorem followed (h : P.LockedAs l) (hP : P.Reachable admitted) (hl : l.Reachable)
    (hst : P.Step admitted Q) : ∃ l' : KeyedLocks UserId Nat, l'.Reachable ∧ Q.LockedAs l' := by
  cases hst with
  | environment clock files => exact ⟨l, hl, h.holding, h.locks⟩
  | @start w as p hp =>
    -- The new activity is at a place of its own, and holds nothing.
    have hend : LockedAs ⟨w, as ++ [Activity.start p]⟩ l := by
      refine ⟨h.holding, fun i buyer => (h.locks i buyer).trans ?_⟩
      rcases Nat.lt_trichotomy i as.length with hi | rfl | hi
      · rw [List.getElem?_append_left hi]
      · simp [Activity.start]
      · obtain ⟨n, rfl⟩ := Nat.exists_eq_add_of_lt hi
        simp [Nat.add_assoc, Activity.start]
    exact ⟨l, hl, hend⟩
  | @move w w' a a' as bs ha =>
    rcases ha.locks_cases hP.nodup_locks with ⟨user, hfree, hlocks⟩ | ⟨p, hlocks⟩
    · have hnobody : ∀ c ∈ l.claims, c.holding = true → c.key ≠ user := by
        rintro c hc hholding rfl
        refine hfree ((h.lockedBy hP hl).mem_iff.mpr ?_)
        exact KeyedLocks.mem_heldKeys.mpr ⟨c, hc, hholding, rfl⟩
      obtain ⟨l', hl', n, hclaims⟩ := hl.exists_granted as.length hnobody
      have hclaimed (i : Nat) (buyer : UserId) : l'.Claimed i buyer ↔
          l.Claimed i buyer ∨ as.length = i ∧ user = buyer :=
        KeyedLocks.claimed_concat_iff hclaims
      refine ⟨l', hl', h.move ?_ ?_ ?_⟩
      · rw [hclaims]
        exact List.forall_mem_append.mpr ⟨h.holding, List.forall_mem_singleton.mpr rfl⟩
      · intro i buyer hi
        exact (hclaimed i buyer).trans (or_iff_left fun hmine => hi hmine.1.symm)
      · intro buyer
        rw [hclaimed, h.claimed_iff, hlocks, List.mem_cons]
        simp [or_comm, eq_comm]
    · let kept (i : Nat) (buyer : UserId) : Bool := i != as.length || p buyer
      refine ⟨_, hl.filter fun c => kept c.task c.key, h.move ?_ ?_ ?_⟩
      · exact fun c hc => h.holding c (List.mem_filter.mp hc).1
      · intro i buyer hi
        rw [KeyedLocks.claimed_filter_iff]
        exact and_iff_left (by simp [kept, hi])
      · intro buyer
        rw [KeyedLocks.claimed_filter_iff, h.claimed_iff, hlocks, List.mem_filter]
        simp [kept]

end LockedAs

/-- Whatever programs run, some tasks could hold locks by key just as the activities hold the locks
of buyers, and the world has the locks that these tasks hold. -/
theorem Reachable.lockedAs (h : P.Reachable admitted) : ∃ l : KeyedLocks UserId Nat,
    l.Reachable ∧ P.LockedAs l ∧ P.world.LockedBy l := by
  suffices hlocks : ∃ l : KeyedLocks UserId Nat, l.Reachable ∧ P.LockedAs l by
    obtain ⟨l, hl, hP⟩ := hlocks
    exact ⟨l, hl, hP, hP.lockedBy h hl⟩
  induction h with
  | start clock retention =>
    exact ⟨.empty, .empty, nofun, fun i buyer => by simp [KeyedLocks.empty, KeyedLocks.Claimed]⟩
  | step hP hst ih =>
    obtain ⟨l, hl, hlocks⟩ := ih
    exact hlocks.followed hP hl hst

end Pool

end Marketplace
