import Mathlib.Algebra.Group.Nat.Defs
import Marketplace.Proofs.Order.Knowledge
set_option autoImplicit false

/-!
# Identifiers of stored jobs

A stored job keeps the identifier that it was submitted with, and programs that go through services
submit jobs under identifiers that they have been given for them.  A new identifier is told from all
given ones by its count as long as 74 bits hold it, so a new job is never refused.
-/

namespace Marketplace

/-! ## Counts in identifiers -/

namespace JobId

/-- Bits that are put together are told apart again, the upper ones and the lower ones. -/
theorem append_inj {n m : Nat} {a a' : BitVec n} {b b' : BitVec m} (h : a ++ b = a' ++ b') :
    a = a' ∧ b = b' := by
  constructor
  · have hleft := congrArg (BitVec.extractLsb' m n) h
    rwa [BitVec.extractLsb'_append_eq_left, BitVec.extractLsb'_append_eq_left] at hleft
  · have hright := congrArg (BitVec.extractLsb' 0 m) h
    rwa [BitVec.extractLsb'_append_eq_right, BitVec.extractLsb'_append_eq_right] at hright

/-- Whatever the times, identifiers of different counts differ as long as 74 bits hold the
counts. -/
theorem count_eq_of_ofClock_eq {millis millis' count count' : Nat} (hcount : count < 2 ^ 74)
    (hcount' : count' < 2 ^ 74) (h : ofClock millis count = ofClock millis' count') :
    count = count' := by
  obtain ⟨hupper, hlow⟩ := append_inj (congrArg JobId.value h)
  obtain ⟨hmiddle, -⟩ := append_inj hupper
  obtain ⟨-, hhigh⟩ := append_inj hmiddle
  have hlow := congrArg BitVec.toNat hlow
  have hhigh := congrArg BitVec.toNat hhigh
  simp only [BitVec.toNat_ofNat, Nat.pow_eq] at hlow hhigh
  omega

end JobId

/-! ## Jobs keep their identifiers -/

namespace JobStore

/-- Every job of the second store has the identifier of one of the first store.  No call but the one
that submits a job makes a new identifier known to the store. -/
def KeepsIds (s t : JobStore) : Prop := ∀ j ∈ t.jobs, ∃ k ∈ s.jobs, k.id = j.id

theorem KeepsIds.refl (s : JobStore) : s.KeepsIds s := fun j hj => ⟨j, hj, rfl⟩

theorem mem_of_find? {s : JobStore} {id : JobId} {j : Job} (h : s.find? id = some j) :
    j ∈ s.jobs ∧ j.id = id :=
  ⟨List.mem_of_find?_eq_some h, by simpa using List.find?_some h⟩

/-- A job that takes another one's place has its identifier. -/
theorem exists_of_mem_replace {jobs : List Job} {j k : Job} (hk : k ∈ replace jobs j) :
    ∃ l ∈ jobs, l.id = k.id := by
  obtain ⟨l, hl, rfl⟩ := List.mem_map.mp hk
  refine ⟨l, hl, ?_⟩
  split
  · rename_i hid
    exact beq_iff_eq.mp hid
  · rfl

theorem keepsIds_update {s t : JobStore} {j : Job} (h : s.update j = .ok t) : s.KeepsIds t := by
  unfold update at h
  split at h
  · cases h
  · cases h
    intro k hk
    simp only at hk
    split at hk
    · exact exists_of_mem_replace (List.mem_filter.mp hk).1
    · exact exists_of_mem_replace hk

theorem keepsIds_claimNext (s : JobStore) (now : Instant) : s.KeepsIds (s.claimNext now).2 := by
  unfold claimNext
  split
  · exact .refl s
  · intro k hk
    exact exists_of_mem_replace hk

theorem keepsIds_retryFailed {s t : JobStore} {owner : UserId} {id : JobId} {now : Instant}
    {j : Job} (h : s.retryFailed owner id now = .ok (j, t)) : s.KeepsIds t := by
  unfold retryFailed at h
  split at h
  · cases h
  · split at h
    · cases h
    · split at h
      · cases h
        intro k hk
        exact exists_of_mem_replace hk
      · cases h

/-- A job is added by the call that submits it, and by nothing else.  All other calls write jobs in
the places of jobs. -/
theorem id_of_step (s : JobStore) (now : Instant) (c : JobCall) {j : Job}
    (hj : j ∈ (c.step s now).2.jobs) : (∃ k ∈ s.jobs, k.id = j.id) ∨ c = .enqueue j := by
  cases c with
  | enqueue k =>
    simp only [JobCall.step, enqueue] at hj
    cases hfind : s.find? k.id with
    | some l =>
      rw [hfind] at hj
      exact Or.inl ⟨j, hj, rfl⟩
    | none =>
      rw [hfind] at hj
      rcases List.mem_append.mp hj with hj | hj
      · exact Or.inl ⟨j, hj, rfl⟩
      · rw [List.mem_singleton.mp hj]
        exact Or.inr rfl
  | get _ _ => exact Or.inl ⟨j, hj, rfl⟩
  | update k =>
    refine Or.inl ?_
    simp only [JobCall.step] at hj
    split at hj
    · rename_i t ht
      exact keepsIds_update ht j hj
    · exact ⟨j, hj, rfl⟩
  | claimNext => exact Or.inl (s.keepsIds_claimNext now j hj)
  | retryFailed owner id =>
    refine Or.inl ?_
    simp only [JobCall.step] at hj
    split at hj
    · rename_i k t ht
      exact keepsIds_retryFailed ht j hj
    · exact ⟨j, hj, rfl⟩

end JobStore

namespace Pool

variable {P : Pool}

/-- Every stored job has an identifier that has been given.  Programs that go through services know
this of a job before they submit it, and the store keeps it. -/
theorem Reachable.jobs_given (h : P.Reachable Program.ThroughServices) :
    ∀ j ∈ P.world.jobs.jobs, (Fact.given j.id).Holds P.world none := by
  induction h with
  | start clock retention => simp [World.start, JobStore.empty]
  | @step P Q hP hst ih =>
    cases hst with
    | start _ => exact ih
    | environment clock files => exact ih
    | @move w w' a a' as bs ha =>
      intro j hj
      have hold : (∃ k ∈ w.jobs.jobs, k.id = j.id) → (Fact.given j.id).Holds w' none := by
        rintro ⟨k, hk, hid⟩
        obtain ⟨millis, count, hcount, hgiven⟩ := ih k hk
        exact ⟨millis, count, Nat.le_trans hcount ha.issued_le, hid.symm.trans hgiven⟩
      cases ha with
      | @call c next r _ m hprogram hwhole hallows hact =>
        by_cases hjob : ∃ d, c = .job d
        · obtain ⟨d, rfl⟩ := hjob
          cases hact
          rcases JobStore.id_of_step w.jobs w.clock d hj with hkept | rfl
          · exact hold hkept
          · -- The rules let a job be submitted under nothing but a given identifier.
            obtain ⟨k, hk⟩ := hP.knows a (by simp)
            exact hk.facts _ (hk.allowed hprogram)
        · have hsame := (World.frame_of_act hact).jobs fun d hd => hjob ⟨d, hd⟩
          simp only [hsame] at hj
          exact hold ⟨j, hj, rfl⟩
      | @finish m _ => cases m <;> exact hold ⟨j, hj, rfl⟩
      | drop _ => exact hold ⟨j, hj, rfl⟩

/-- The next new identifier is that of no stored job.  All given ones have smaller counts, and
counts are told apart as long as 74 bits hold them. -/
theorem Reachable.newJobId_fresh (h : P.Reachable Program.ThroughServices)
    (hissued : P.world.issued + 1 < 2 ^ 74) :
    P.world.jobs.find? (.ofClock P.world.millis (P.world.issued + 1)) = none := by
  cases hfind : P.world.jobs.find? (.ofClock P.world.millis (P.world.issued + 1)) with
  | none => rfl
  | some j =>
    obtain ⟨hj, hid⟩ := JobStore.mem_of_find? hfind
    obtain ⟨millis, count, hcount, hgiven⟩ := h.jobs_given j hj
    have hsame := JobId.count_eq_of_ofClock_eq (by omega) hissued (hgiven.symm.trans hid)
    omega

end Pool

end Marketplace
