import Mathlib.Data.List.Nodup
import Marketplace.Locks
import Marketplace.Proofs.Table
set_option autoImplicit false

/-!
# Who holds the lock of a key

Any number of tasks come for keys, get the slots that they wait for, give them back and stop
waiting, each at any time (`KeyedLocks.Step`).  Which of several waiting tasks gets a slot is left
open, so what is true here does not depend on the sequence in which `KeyedLocks.settle` hands slots
out.
-/

namespace Marketplace.KeyedLocks

variable {κ τ : Type} {l l' : KeyedLocks κ τ}

theorem mem_heldSlots {n : Nat} :
    n ∈ l.heldSlots ↔ ∃ c ∈ l.claims, c.holding = true ∧ c.slot = n := by
  simp only [heldSlots, List.mem_map, List.mem_filter, and_assoc]

theorem isAlive_iff {n : Nat} : l.isAlive n = true ↔ ∃ c ∈ l.claims, c.slot = n := by
  simp [isAlive]

/-- Whoever is left when a claim is gone was there before. -/
theorem mem_of_left {as bs : List (LockClaim κ τ)} {c d : LockClaim κ τ}
    (hclaims : l.claims = as ++ c :: bs) (hd : d ∈ as ++ bs) : d ∈ l.claims := by
  rw [hclaims]
  exact List.mem_append.mpr ((List.mem_append.mp hd).imp_right (List.mem_cons_of_mem _))

variable [DecidableEq κ]

/-- Without dead slots, a key leads to the slot that it led to if somebody holds it or waits for
it. -/
theorem get?_prune_eq_some_iff {k : κ} {n : Nat} :
    l.prune.slots.get? k = some n ↔ l.slots.get? k = some n ∧ ∃ c ∈ l.claims, c.slot = n := by
  simp only [prune, Table.get?_filter_eq_some_iff, isAlive_iff]

/-- Whoever comes for a key waits for the slot that others hold or wait for, or else for a new
one. -/
theorem enter_cases (l : KeyedLocks κ τ) (task : τ) (key : κ) :
    (∃ n, l.prune.slots.get? key = some n ∧
      l.enter task key = ⟨l.prune.slots, l.claims ++ [⟨task, key, n, false⟩], l.made⟩) ∨
      l.prune.slots.get? key = none ∧ l.enter task key = ⟨l.prune.slots.insert key l.made,
        l.claims ++ [⟨task, key, l.made, false⟩], l.made + 1⟩ := by
  simp only [enter]
  split
  · rename_i n hn
    exact Or.inl ⟨n, hn, rfl⟩
  · rename_i hnone
    exact Or.inr ⟨hnone, rfl⟩

/-! ## What tasks do -/

/-- One thing that a task does. -/
inductive Step (l : KeyedLocks κ τ) : KeyedLocks κ τ → Prop
  /-- A task comes for a key; it does not hold the slot yet. -/
  | enter (task : τ) (key : κ) : Step l (l.enter task key)
  /-- A task that waits gets its slot, which nobody holds. -/
  | acquire {as bs : List (LockClaim κ τ)} {c : LockClaim κ τ} (hclaims : l.claims = as ++ c :: bs)
      (hfree : c.slot ∉ l.heldSlots) :
    Step l { l with claims := as ++ { c with holding := true } :: bs }
  /-- A task gives back the slot that it holds. -/
  | release {as bs : List (LockClaim κ τ)} {c : LockClaim κ τ} (hclaims : l.claims = as ++ c :: bs)
      (hholding : c.holding = true) : Step l { l with claims := as ++ bs }
  /-- A task waits no longer. -/
  | giveUp {as bs : List (LockClaim κ τ)} {c : LockClaim κ τ} (hclaims : l.claims = as ++ c :: bs)
      (hwaiting : c.holding = false) : Step l { l with claims := as ++ bs }

/-- The locks that steps lead to from those that nobody holds. -/
inductive Reachable : KeyedLocks κ τ → Prop
  | empty : Reachable KeyedLocks.empty
  | step {l l' : KeyedLocks κ τ} (h : Reachable l) (hst : l.Step l') : Reachable l'

/-! ### The operations are made of steps -/

namespace Reachable

theorem enter (h : l.Reachable) (task : τ) (key : κ) : (l.enter task key).Reachable :=
  h.step (.enter task key)

/-- Any claims are given up, one after the other. -/
theorem filter (h : l.Reachable) (p : LockClaim κ τ → Bool) :
    Reachable { l with claims := l.claims.filter p } := by
  have hfrom : ∀ as cs, Reachable { l with claims := as ++ cs } →
      Reachable { l with claims := as ++ cs.filter p } := by
    intro as cs
    induction cs generalizing as with
    | nil => exact id
    | cons c cs ih =>
      intro has
      by_cases hp : p c
      · have hrest := ih (as ++ [c]) (by simpa using has)
        simpa [hp] using hrest
      · have hdropped : Reachable { l with claims := as ++ cs } := by
          cases hholding : c.holding with
          | true => exact has.step (.release rfl hholding)
          | false => exact has.step (.giveUp rfl hholding)
        simpa [hp] using ih as hdropped
  exact hfrom [] l.claims h

/-- Free slots are handed out one after the other; `as` are the claims that have been seen. -/
theorem grant {slots : Table κ Nat} {made : Nat} (as cs : List (LockClaim κ τ)) (taken : List Nat)
    (h : Reachable ⟨slots, as ++ cs, made⟩)
    (htaken : ∀ n, n ∈ taken ↔ n ∈ heldSlots ⟨slots, as ++ cs, made⟩) :
    Reachable ⟨slots, as ++ KeyedLocks.grant taken cs, made⟩ := by
  induction cs generalizing as taken with
  | nil => exact h
  | cons c cs ih =>
    simp only [KeyedLocks.grant]
    split
    · have hrest := ih (as ++ [c]) taken (by simpa using h) (by simpa using htaken)
      simpa using hrest
    · rename_i hfree
      have hnot : c.slot ∉ heldSlots ⟨slots, as ++ c :: cs, made⟩ := by
        rw [← htaken]
        simpa using hfree
      have hwaiting : c.holding = false :=
        eq_false_of_ne_true fun hholding => hnot (mem_heldSlots.mpr ⟨c, by simp, hholding, rfl⟩)
      have hnext := h.step (.acquire rfl hnot)
      have hrest := ih (as ++ [{ c with holding := true }]) (c.slot :: taken)
        (by simpa using hnext) fun n => ?_
      · simpa using hrest
      · rw [List.mem_cons, htaken n]
        simp [heldSlots, hwaiting, or_left_comm]

theorem settle (h : l.Reachable) : l.settle.Reachable :=
  grant [] l.claims l.heldSlots h fun _ => Iff.rfl

variable [DecidableEq τ]

theorem release (h : l.Reachable) (task : τ) : (l.release task).Reachable := h.filter _

theorem giveUp (h : l.Reachable) (task : τ) : (l.giveUp task).Reachable := h.filter _

end Reachable

/-! ## The invariant -/

/-- Every key that is held or waited for leads to its slot, no two keys lead to one slot, and no
slot is held twice. -/
structure Sound (l : KeyedLocks κ τ) : Prop where
  claimed : ∀ c ∈ l.claims, l.slots.get? c.key = some c.slot
  made : l.slots.All fun _ n => n < l.made
  distinct : ∀ k k' n, l.slots.get? k = some n → l.slots.get? k' = some n → k = k'
  held : l.heldSlots.Nodup

namespace Sound

variable {c d : LockClaim κ τ} {as bs : List (LockClaim κ τ)}

theorem empty : (KeyedLocks.empty : KeyedLocks κ τ).Sound where
  claimed := nofun
  made := .empty
  distinct := nofun
  held := List.nodup_nil

/-- Two claims are for one slot just if they are for one key. -/
theorem slot_eq_iff (h : l.Sound) (hc : c ∈ l.claims) (hd : d ∈ l.claims) :
    c.slot = d.slot ↔ c.key = d.key := by
  have hslot := h.claimed c hc
  have hslot' := h.claimed d hd
  constructor
  · intro heq
    rw [heq] at hslot
    exact h.distinct _ _ _ hslot hslot'
  · intro heq
    rw [heq, hslot'] at hslot
    exact (Option.some.inj hslot).symm

/-! ### A task comes for a key -/

theorem get?_prune (h : l.Sound) (hc : c ∈ l.claims) : l.prune.slots.get? c.key = some c.slot :=
  get?_prune_eq_some_iff.mpr ⟨h.claimed c hc, c, hc, rfl⟩

/-- A key that is held or waited for keeps its slot when a task comes, even for the same key. -/
theorem get?_enter_of_mem (h : l.Sound) (task : τ) (key : κ) (hc : c ∈ l.claims) :
    (l.enter task key).slots.get? c.key = some c.slot := by
  have hkept := h.get?_prune hc
  rcases enter_cases l task key with ⟨n, -, heq⟩ | ⟨hnone, heq⟩ <;> rw [heq]
  · exact hkept
  · have hkey : key ≠ c.key := by
      rintro rfl
      rw [hkept] at hnone
      cases hnone
    simp only [Table.get?_insert, if_neg hkey, hkept]

theorem enter (h : l.Sound) (task : τ) (key : κ) : (l.enter task key).Sound := by
  have hold := fun c hc => h.get?_enter_of_mem (c := c) task key hc
  have hdistinct : ∀ k k' n, l.prune.slots.get? k = some n → l.prune.slots.get? k' = some n →
      k = k' := fun k k' n hk hk' =>
    h.distinct k k' n (get?_prune_eq_some_iff.mp hk).1 (get?_prune_eq_some_iff.mp hk').1
  have hheld : ∀ slots n made, heldSlots (⟨slots, l.claims ++ [⟨task, key, n, false⟩], made⟩ :
      KeyedLocks κ τ) = l.heldSlots := by
    intro slots n made
    simp [heldSlots]
  rcases enter_cases l task key with ⟨n, hn, heq⟩ | ⟨hnone, heq⟩ <;> rw [heq] at hold ⊢
  · refine ⟨fun c hc => ?_, h.made.filter _, hdistinct, by rw [hheld]; exact h.held⟩
    rcases List.mem_append.mp hc with hc | hc
    · exact hold c hc
    · rw [List.mem_singleton.mp hc]
      exact hn
  · -- No key leads to the new slot yet.
    have hmade : ∀ k, l.prune.slots.get? k ≠ some l.made := fun k hk =>
      Nat.lt_irrefl _ (h.made k _ (get?_prune_eq_some_iff.mp hk).1)
    refine ⟨fun c hc => ?_, ?_, fun k k' n hk hk' => ?_, by rw [hheld]; exact h.held⟩
    · rcases List.mem_append.mp hc with hc | hc
      · exact hold c hc
      · rw [List.mem_singleton.mp hc]
        simp
    · exact ((h.made.filter _).imp fun _ _ hlt => Nat.lt_succ_of_lt hlt).insert (Nat.lt_succ_self _)
    · simp only [Table.get?_insert] at hk hk'
      split at hk <;> split at hk'
      · rename_i hthis hthat
        exact hthis.symm.trans hthat
      · cases hk
        exact absurd hk' (hmade k')
      · cases hk'
        exact absurd hk (hmade k)
      · exact hdistinct k k' n hk hk'

/-- Right after a task has come, the map leads from the keys that are held or waited for to their
slots, and from no others. -/
theorem get?_enter (h : l.Sound) (task : τ) (key k : κ) (n : Nat) :
    (l.enter task key).slots.get? k = some n ↔
      ∃ c ∈ (l.enter task key).claims, c.key = k ∧ c.slot = n := by
  constructor
  · have hold : l.prune.slots.get? k = some n →
        ∃ c ∈ l.claims, c.key = k ∧ c.slot = n := by
      intro hk
      obtain ⟨hslot, c, hc, rfl⟩ := get?_prune_eq_some_iff.mp hk
      exact ⟨c, hc, h.distinct _ _ _ (h.claimed c hc) hslot, rfl⟩
    rcases enter_cases l task key with ⟨m, -, heq⟩ | ⟨-, heq⟩ <;> rw [heq] <;> intro hk
    · obtain ⟨c, hc, hsame⟩ := hold hk
      exact ⟨c, List.mem_append_left _ hc, hsame⟩
    · simp only [Table.get?_insert] at hk
      split at hk
      · rename_i hkey
        cases hk
        exact ⟨_, List.mem_append_right _ (List.mem_singleton_self _), hkey, rfl⟩
      · obtain ⟨c, hc, hsame⟩ := hold hk
        exact ⟨c, List.mem_append_left _ hc, hsame⟩
  · rintro ⟨c, hc, rfl, rfl⟩
    exact (h.enter task key).claimed c hc

/-! ### A task gets a slot, gives it back, or waits no longer -/

theorem leave (h : l.Sound) (hclaims : l.claims = as ++ c :: bs) :
    Sound { l with claims := as ++ bs } where
  claimed := fun d hd => h.claimed d (mem_of_left hclaims hd)
  made := h.made
  distinct := h.distinct
  held := by
    refine List.Nodup.sublist (List.Sublist.map _ (List.Sublist.filter _ ?_)) h.held
    rw [hclaims]
    exact List.Sublist.append_left (List.sublist_cons_self c bs) as

theorem acquire (h : l.Sound) (hclaims : l.claims = as ++ c :: bs) (hfree : c.slot ∉ l.heldSlots) :
    Sound { l with claims := as ++ { c with holding := true } :: bs } where
  claimed := by
    intro d hd
    rcases List.mem_append.mp hd with hd | hd
    · exact h.claimed d (mem_of_left hclaims (List.mem_append_left _ hd))
    · rcases List.mem_cons.mp hd with rfl | hd
      · exact h.claimed c (by simp [hclaims])
      · exact h.claimed d (mem_of_left hclaims (List.mem_append_right _ hd))
  made := h.made
  distinct := h.distinct
  held := by
    have hheld : (heldSlots { l with claims := as ++ bs }).Nodup := (h.leave hclaims).held
    have hnot : c.slot ∉ heldSlots { l with claims := as ++ bs } := by
      intro hmem
      obtain ⟨d, hd, hholding⟩ := mem_heldSlots.mp hmem
      exact hfree (mem_heldSlots.mpr ⟨d, mem_of_left hclaims hd, hholding⟩)
    simp only [heldSlots, List.filter_append, List.map_append] at hheld hnot
    simp only [heldSlots, List.filter_append, List.filter_cons, if_true, List.map_append,
      List.map_cons]
    exact List.perm_middle.nodup_iff.mpr (List.nodup_cons.mpr ⟨hnot, hheld⟩)

/-! ### Every step -/

theorem step (h : l.Sound) (hst : l.Step l') : l'.Sound := by
  cases hst with
  | enter task key => exact h.enter task key
  | acquire hclaims hfree => exact h.acquire hclaims hfree
  | release hclaims _ => exact h.leave hclaims
  | giveUp hclaims _ => exact h.leave hclaims

/-- A key that is held or waited for leads to the same slot after any step. -/
theorem get?_step (h : l.Sound) (hst : l.Step l') (hc : c ∈ l.claims) :
    l'.slots.get? c.key = some c.slot := by
  cases hst with
  | enter task key => exact h.get?_enter_of_mem task key hc
  | _ => exact h.claimed c hc

/-- The keys that are held are distinct. -/
theorem nodup_heldKeys (h : l.Sound) : ((l.claims.filter (·.holding)).map (·.key)).Nodup := by
  have hheld := h.held
  rw [heldSlots, List.Nodup, List.pairwise_map] at hheld
  rw [List.Nodup, List.pairwise_map]
  refine hheld.imp_of_mem fun {c d} hc hd hne hkey => hne ?_
  exact (h.slot_eq_iff (List.mem_filter.mp hc).1 (List.mem_filter.mp hd).1).mpr hkey

/-- The slot of a claim is held just if somebody holds the same key. -/
theorem mem_heldSlots_iff (h : l.Sound) (hc : c ∈ l.claims) :
    c.slot ∈ l.heldSlots ↔ ∃ d ∈ l.claims, d.holding = true ∧ d.key = c.key := by
  rw [mem_heldSlots]
  refine exists_congr fun d => and_congr_right fun hd => and_congr_right fun _ => ?_
  exact h.slot_eq_iff hd hc

end Sound

theorem Reachable.sound (h : l.Reachable) : l.Sound := by
  induction h with
  | empty => exact .empty
  | step _ hst ih => exact ih.step hst

/-- Whatever tasks do, and in whatever order: the slots that are held or waited for are one for each
key; each key is held once at most; whoever waits is kept waiting by nobody but a holder of the same
key; right after a task has come, the map has just the keys that are held or waited for, with their
slots; and as long as a key is held or waited for, its slot is not exchanged for another one. -/
theorem Reachable.keys_exclusive (h : l.Reachable) :
    (∀ c ∈ l.claims, ∀ d ∈ l.claims, c.slot = d.slot ↔ c.key = d.key) ∧
      ((l.claims.filter (·.holding)).map (·.key)).Nodup ∧
      (∀ c ∈ l.claims, c.slot ∈ l.heldSlots ↔ ∃ d ∈ l.claims, d.holding = true ∧ d.key = c.key) ∧
      (∀ (task : τ) (key k : κ) (n : Nat), (l.enter task key).slots.get? k = some n ↔
        ∃ c ∈ (l.enter task key).claims, c.key = k ∧ c.slot = n) ∧
      ∀ l', l.Step l' → ∀ c ∈ l.claims, ∀ d ∈ l'.claims, c.key = d.key → c.slot = d.slot := by
  have hsound := h.sound
  refine ⟨fun c hc d hd => hsound.slot_eq_iff hc hd, hsound.nodup_heldKeys,
    fun c hc => hsound.mem_heldSlots_iff hc, hsound.get?_enter, ?_⟩
  intro l' hst c hc d hd hkey
  have hbefore := hsound.get?_step hst hc
  have hafter := (hsound.step hst).claimed d hd
  rw [hkey, hafter] at hbefore
  exact (Option.some.inj hbefore).symm

/-- The first task has given the key 7 back before the second one, which had come for it, got it,
and nobody wants the key 8 any more.  Whoever comes for the key 7 then waits for the slot of the
second task, and the key 8 is forgotten. -/
theorem Reachable.keys_exclusive_at_handover : ∃ l : KeyedLocks Nat Nat, l.Reachable ∧
    l.claims = [⟨2, 7, 0, false⟩] ∧ l.slots.get? 8 = some 1 ∧
    (l.enter 4 7).claims = [⟨2, 7, 0, false⟩, ⟨4, 7, 0, false⟩] ∧
    ∀ k n, (l.enter 4 7).slots.get? k = some n ↔ k = 7 ∧ n = 0 := by
  let l : KeyedLocks Nat Nat :=
    ((((KeyedLocks.empty.enter 1 7).settle.enter 2 7).enter 3 8).release 1).giveUp 3
  have h : l.Reachable := ((((empty.enter 1 7).settle.enter 2 7).enter 3 8).release 1).giveUp 3
  have hclaims : (l.enter 4 7).claims = [⟨2, 7, 0, false⟩, ⟨4, 7, 0, false⟩] := by decide
  obtain ⟨-, -, -, hmap, -⟩ := h.keys_exclusive
  refine ⟨l, h, by decide, by decide, hclaims, fun k n => ?_⟩
  rw [hmap, hclaims]
  simp [eq_comm]

end Marketplace.KeyedLocks
