import Mathlib.Data.List.Nodup
import Marketplace.Proofs.Job.Identifiers
set_option autoImplicit false

/-!
# What calls write to the job store

A job store has one job of an identifier at most.  Each call writes one job or none, in the place of
the job of its identifier, and leaves all others as they are, but for finished ones that are too
many (`JobStore.step_writes`).

This is what all later results about jobs rest on: claims, updates and retries are one thing, a job
written in the place of its identifier, and differ only in which job it is.
-/

namespace Marketplace

/-- The job that a call writes, if it is answered so.  It is read off the answer, so that a log of
calls and answers says what has been written without the stores in between. -/
def JobCall.written? : (c : JobCall) → Except JobFault c.Result → Option Job
  | .enqueue j, .ok _ | .update j, .ok _ => some j
  | .claimNext, .ok j => j
  | .retryFailed _ _, .ok j => some j
  | _, _ => none

namespace Job

variable {j k l : Job}

/-! ## Older jobs -/

/-- The older job comes first: by the time of its making, and by its identifier where that is the
same. -/
theorem isBefore_iff : j.isBefore k = true ↔
    j.createdAt.seconds < k.createdAt.seconds ∨ (j.createdAt.seconds = k.createdAt.seconds ∧
      (j.createdAt.nanos < k.createdAt.nanos ∨ (j.createdAt.nanos = k.createdAt.nanos ∧
        j.id.toNat < k.id.toNat))) := by
  have heq : j.createdAt = k.createdAt ↔
      j.createdAt.seconds = k.createdAt.seconds ∧ j.createdAt.nanos = k.createdAt.nanos := by
    rw [Instant.mk.injEq]
  simp only [isBefore, Instant.lt, Instant.le, Bool.or_eq_true, Bool.and_eq_true, Bool.not_eq_true',
    Bool.or_eq_false_iff, Bool.and_eq_false_imp, decide_eq_false_iff_not, decide_eq_true_eq,
    beq_iff_eq, heq]
  omega

/-- No job is older than itself. -/
theorem isBefore_irrefl (j : Job) : ¬j.isBefore j = true := by
  rw [isBefore_iff]
  omega

/-- Of two jobs one at most is older. -/
theorem isBefore_asymm (h : j.isBefore k = true) : ¬k.isBefore j = true := by
  rw [isBefore_iff] at h ⊢
  omega

/-- Together with asymmetry this makes the order total enough for an oldest job to exist in any
list. -/
theorem isBefore_neg_trans (hjk : ¬j.isBefore k = true) (hkl : ¬k.isBefore l = true) :
    ¬j.isBefore l = true := by
  rw [isBefore_iff] at hjk hkl ⊢
  omega

theorem isClaimable_of_isDue {now : Instant} (h : j.isDue now = true) :
    j.status.isClaimable = true :=
  (Bool.and_eq_true_iff.mp h).1

end Job

namespace JobStore

variable {s t : JobStore} {jobs : List Job} {j k : Job} {id : JobId} {now : Instant}
  {owner : UserId}

/-! ## Jobs by identifier -/

/-- No two jobs share an identifier.  Jobs are kept in a list, and only this makes the job of an
identifier one job. -/
def Distinct (s : JobStore) : Prop := (s.jobs.map Job.id).Nodup

/-- Jobs of one identifier are one job. -/
theorem Distinct.eq_of_id_eq (hs : s.Distinct) (hj : j ∈ s.jobs) (hk : k ∈ s.jobs)
    (hid : j.id = k.id) : j = k :=
  List.inj_on_of_nodup_map hs hj hk hid

/-- The job of an identifier is the one that has it. -/
theorem Distinct.find?_eq_some_iff (hs : s.Distinct) :
    s.find? id = some j ↔ j ∈ s.jobs ∧ j.id = id := by
  constructor
  · exact mem_of_find?
  · rintro ⟨hj, rfl⟩
    cases hfind : s.find? j.id with
    | none =>
      have hnone := List.find?_eq_none.mp hfind j hj
      simp at hnone
    | some k =>
      obtain ⟨hk, hid⟩ := mem_of_find? hfind
      rw [hs.eq_of_id_eq hk hj hid]

/-- What is stored under an identifier once a job has been written: the job if it is its own, else
what has been there. -/
def overlay (k? : Option Job) (id : JobId) (old : Option Job) : Option Job :=
  match k? with
  | some k => if k.id = id then some k else old
  | none => old

/-- Under one identifier a write either decides everything or nothing. -/
theorem overlay_cases (k? : Option Job) (id : JobId) :
    (∃ k, ∀ old, overlay k? id old = some k) ∨ ∀ old, overlay k? id old = old := by
  cases k? with
  | none => exact Or.inr fun old => rfl
  | some k =>
    by_cases hid : k.id = id
    · exact Or.inl ⟨k, fun old => if_pos hid⟩
    · exact Or.inr fun old => if_neg hid

/-- The second store is the first one with a job written to it; of the finished jobs some may be
gone.  All calls are writes in this sense, and so are any number of them, which is how they are
used. -/
structure Writes (s : JobStore) (k? : Option Job) (t : JobStore) : Prop where
  distinct : t.Distinct
  find? : ∀ id, t.find? id = overlay k? id (s.find? id) ∨
    (t.find? id = none ∧ ∃ j, overlay k? id (s.find? id) = some j ∧ j.status.isTerminal = true)

/-- A call that reads writes nothing. -/
theorem Writes.same (hs : s.Distinct) : s.Writes none s := ⟨hs, fun _ => Or.inl rfl⟩

/-- A job that has been written is stored, unless it has come to its end and is gone. -/
theorem Writes.find?_written (h : s.Writes (some k) t) :
    t.find? k.id = some k ∨ (t.find? k.id = none ∧ k.status.isTerminal = true) := by
  have hoverlay : overlay (some k) k.id (s.find? k.id) = some k := if_pos rfl
  rcases h.find? k.id with hsame | ⟨hgone, l, hl, hterminal⟩
  · exact Or.inl (hsame.trans hoverlay)
  · cases hoverlay.symm.trans hl
    exact Or.inr ⟨hgone, hterminal⟩

/-- A job that has been written and goes on is stored. -/
theorem Writes.find?_of_written (h : s.Writes (some k) t) (hid : k.id = id)
    (hk : k.status.isTerminal = false) : t.find? id = some k := by
  subst hid
  rcases h.find?_written with hstored | ⟨-, hterminal⟩
  · exact hstored
  · rw [hk] at hterminal
    cases hterminal

/-- A running job that is not written stays as it is.  It is not finished, so that it is not given
up either. -/
theorem Writes.find?_of_running {k? : Option Job} (h : s.Writes k? t) (hj : s.find? id = some j)
    (hrunning : j.status = .running) (hk : ∀ k, k? = some k → k.id ≠ id) : t.find? id = some j := by
  have hoverlay : overlay k? id (s.find? id) = some j := by
    unfold overlay
    split
    · rename_i k
      rw [if_neg (hk k rfl), hj]
    · exact hj
  rcases h.find? id with hsame | ⟨-, l, hl, hterminal⟩
  · exact hsame.trans hoverlay
  · cases hoverlay.symm.trans hl
    rw [hrunning] at hterminal
    cases hterminal

/-! ## The parts of calls -/

/-- A job that takes another one's place takes its identifier as well. -/
theorem map_id_replace (jobs : List Job) (k : Job) :
    (replace jobs k).map Job.id = jobs.map Job.id := by
  rw [replace, List.map_map]
  refine List.map_congr_left fun j _ => ?_
  simp only [Function.comp_apply]
  split
  · rename_i hid
    exact (beq_iff_eq.mp hid).symm
  · rfl

/-- A job takes the place of the job of its identifier, and there is one such place. -/
theorem writes_replace (hs : s.Distinct) (hk : s.find? k.id = some j) :
    s.Writes (some k) { s with jobs := replace s.jobs k } := by
  have hdistinct : Distinct { s with jobs := replace s.jobs k } := by
    rw [Distinct, map_id_replace]
    exact hs
  obtain ⟨hj, hjid⟩ := mem_of_find? hk
  refine ⟨hdistinct, fun id => Or.inl ?_⟩
  by_cases hid : k.id = id
  · rw [overlay, if_pos hid, hdistinct.find?_eq_some_iff]
    refine ⟨List.mem_map.mpr ⟨j, hj, ?_⟩, hid⟩
    rw [if_pos (beq_iff_eq.mpr hjid)]
  · rw [overlay, if_neg hid]
    refine Option.ext fun l => ?_
    rw [hdistinct.find?_eq_some_iff, hs.find?_eq_some_iff]
    constructor
    · rintro ⟨hl, rfl⟩
      obtain ⟨m, hm, rfl⟩ := List.mem_map.mp hl
      split at hid
      · exact absurd rfl hid
      · rename_i hne
        simp only [hne, Bool.false_eq_true, if_false] at hl ⊢
        exact ⟨hm, trivial⟩
    · rintro ⟨hl, rfl⟩
      refine ⟨List.mem_map.mpr ⟨l, hl, ?_⟩, rfl⟩
      rw [if_neg (by simpa using Ne.symm hid)]

/-- Only finished jobs are given up, and the others are found as before. -/
theorem writes_prune (hs : s.Distinct) (retention : Nat) :
    s.Writes none { s with jobs := prune retention s.jobs } := by
  have hdistinct : Distinct { s with jobs := prune retention s.jobs } :=
    hs.sublist (List.filter_sublist.map Job.id)
  refine ⟨hdistinct, fun id => ?_⟩
  cases hfind : s.find? id with
  | none =>
    refine Or.inl (Option.eq_none_iff_forall_ne_some.mpr fun j hj => ?_)
    obtain ⟨hj, hid⟩ := mem_of_find? hj
    have hold := hs.find?_eq_some_iff.mpr ⟨(List.mem_filter.mp hj).1, hid⟩
    rw [hfind] at hold
    cases hold
  | some j =>
    cases hkept : JobStore.find? { s with jobs := prune retention s.jobs } id with
    | some k =>
      obtain ⟨hk, hid⟩ := mem_of_find? hkept
      have hold := hs.find?_eq_some_iff.mpr ⟨(List.mem_filter.mp hk).1, hid⟩
      rw [hfind] at hold
      exact Or.inl hold.symm
    | none =>
      -- Whoever is dropped shares its identifier with a finished job, which is then the same job.
      refine Or.inr ⟨rfl, j, rfl, ?_⟩
      obtain ⟨hj, hid⟩ := mem_of_find? hfind
      have hdropped : j ∉ prune retention s.jobs := fun hmem => by
        have hstill := hdistinct.find?_eq_some_iff.mpr ⟨hmem, hid⟩
        rw [hkept] at hstill
        cases hstill
      simp only [prune, List.mem_filter, hj, true_and, Bool.not_eq_true', Bool.not_eq_false,
        List.any_eq_true, beq_iff_eq] at hdropped
      obtain ⟨d, hd, hsame⟩ := hdropped
      have hfinished := List.mem_mergeSort.mp (List.mem_of_mem_take hd)
      obtain ⟨hd, hterminal⟩ := List.mem_filter.mp hfinished
      rwa [← hs.eq_of_id_eq hd hj hsame]

/-- Finished jobs may go after a job has been written. -/
theorem Writes.prune {k? : Option Job} (h : s.Writes k? t) (retention : Nat) :
    s.Writes k? { t with jobs := JobStore.prune retention t.jobs } := by
  have hpruned := writes_prune h.distinct retention
  refine ⟨hpruned.distinct, fun id => ?_⟩
  rcases hpruned.find? id with hsame | ⟨hnone, j, hj, hterminal⟩
  · rw [hsame]
    exact h.find? id
  · rcases h.find? id with hoverlay | ⟨hgone, -⟩
    · exact Or.inr ⟨hnone, j, hoverlay.symm.trans hj, hterminal⟩
    · exact Or.inl (by rw [hgone] at hj; cases hj)

/-! ## Calls -/

/-- A job is put in only under an identifier that no job has. -/
theorem writes_enqueue (hs : s.Distinct) (h : s.enqueue j = .ok t) :
    s.find? j.id = none ∧ s.Writes (some j) t := by
  unfold enqueue at h
  split at h
  · cases h
  · rename_i hnew
    cases h
    have hfresh : ∀ k ∈ s.jobs, k.id ≠ j.id := fun k hk => by
      simpa using List.find?_eq_none.mp hnew k hk
    refine ⟨hnew, ?_, fun id => Or.inl ?_⟩
    · rw [Distinct, List.map_append, List.nodup_append]
      refine ⟨hs, by simp, ?_⟩
      intro i hi i' hi'
      obtain ⟨k, hk, rfl⟩ := List.mem_map.mp hi
      rw [List.map_singleton, List.mem_singleton] at hi'
      rw [hi']
      exact hfresh k hk
    · have hfind : JobStore.find? { s with jobs := s.jobs ++ [j] } id =
          (s.find? id).or ([j].find? fun k => k.id == id) :=
        List.find?_append
      rw [hfind]
      by_cases hid : j.id = id
      · subst hid
        simp [hnew, overlay]
      · simp [hid, overlay]

/-- An update takes the place of a job, if there is one. -/
theorem writes_update (hs : s.Distinct) (h : s.update k = .ok t) : s.Writes (some k) t := by
  unfold update at h
  split at h
  · cases h
  · rename_i old hold
    cases h
    have hreplaced := writes_replace hs hold
    split
    · exact hreplaced.prune s.retention
    · exact hreplaced

/-- A job that is stored can be updated, whatever its status is. -/
theorem exists_update (hk : s.find? k.id = some j) : ∃ t, s.update k = .ok t := by
  unfold update
  rw [hk]
  exact ⟨_, rfl⟩

/-- The oldest of some jobs is one of them. -/
theorem mem_of_oldest? (h : oldest? jobs = some j) : j ∈ jobs := by
  induction jobs generalizing j with
  | nil => cases h
  | cons k ks ih =>
    simp only [oldest?] at h
    split at h
    · rename_i l hl
      split at h
      · cases h
        exact List.mem_cons_of_mem _ (ih hl)
      · cases h
        exact List.mem_cons_self
    · cases h
      exact List.mem_cons_self

/-- Where there is a job there is an oldest one. -/
theorem exists_oldest? (hj : j ∈ jobs) : ∃ k, oldest? jobs = some k := by
  cases jobs with
  | nil => cases hj
  | cons k ks =>
    simp only [oldest?]
    split
    · split
      · exact ⟨_, rfl⟩
      · exact ⟨_, rfl⟩
    · exact ⟨_, rfl⟩

/-- No job comes before the oldest one.  The induction is on the jobs, of which the oldest so far is
kept. -/
theorem not_isBefore_oldest? (h : oldest? jobs = some j) (hk : k ∈ jobs) :
    ¬k.isBefore j = true := by
  induction jobs generalizing j with
  | nil => cases hk
  | cons l ls ih =>
    simp only [oldest?] at h
    split at h
    · rename_i m hm
      split at h
      · rename_i hbefore
        cases h
        rcases List.mem_cons.mp hk with rfl | hk
        · exact Job.isBefore_asymm hbefore
        · exact ih hm hk
      · rename_i hbefore
        cases h
        rcases List.mem_cons.mp hk with rfl | hk
        · exact Job.isBefore_irrefl k
        · exact Job.isBefore_neg_trans (ih hm hk) hbefore
    · rename_i hnone
      cases h
      rcases List.mem_cons.mp hk with rfl | hk
      · exact Job.isBefore_irrefl k
      · obtain ⟨m, hm⟩ := exists_oldest? hk
        rw [hnone] at hm
        cases hm

/-- A job that is due is claimed if it comes before all others that are due.  With distinct
identifiers nothing else can be the oldest. -/
theorem claimNext_eq (hs : s.Distinct) (hj : s.find? id = some j) (hdue : j.isDue now = true)
    (hfirst : ∀ k ∈ s.jobs, k.isDue now = true → k.id = id ∨ j.isBefore k = true) :
    s.claimNext now = (some (j.claim now), { s with jobs := replace s.jobs (j.claim now) }) := by
  obtain ⟨hmem, hid⟩ := mem_of_find? hj
  have hwaits : j ∈ s.jobs.filter fun k => k.isDue now := List.mem_filter.mpr ⟨hmem, hdue⟩
  obtain ⟨k, hk⟩ := exists_oldest? hwaits
  obtain ⟨hkmem, hkdue⟩ := List.mem_filter.mp (mem_of_oldest? hk)
  have hsame : k = j := by
    rcases hfirst k hkmem hkdue with hkid | hbefore
    · exact hs.eq_of_id_eq hkmem hmem (hkid.trans hid.symm)
    · exact absurd hbefore (not_isBefore_oldest? hk hwaits)
  subst hsame
  simp only [claimNext, hk]

/-- What is claimed is due. -/
theorem writes_claimNext (hs : s.Distinct) (now : Instant) :
    s.Writes (s.claimNext now).1 (s.claimNext now).2 ∧
      ∀ k, (s.claimNext now).1 = some k →
        ∃ j, s.find? j.id = some j ∧ j.isDue now = true ∧ k = j.claim now := by
  unfold claimNext
  split
  · refine ⟨.same hs, fun k hk => ?_⟩
    cases hk
  · rename_i j hj
    obtain ⟨hmem, hdue⟩ := List.mem_filter.mp (mem_of_oldest? hj)
    have hfind := hs.find?_eq_some_iff.mpr ⟨hmem, rfl⟩
    refine ⟨writes_replace (k := j.claim now) hs hfind, fun k hk => ?_⟩
    cases hk
    exact ⟨j, hfind, hdue, rfl⟩

/-- A job that is put back was there, had failed for good, and is written as it begins again. -/
theorem writes_retryFailed (hs : s.Distinct) (h : s.retryFailed owner id now = .ok (k, t)) :
    s.Writes (some k) t ∧
      ∃ j, s.find? id = some j ∧ j.status.isFailed = true ∧ k = j.requeue now := by
  unfold retryFailed at h
  split at h
  · cases h
  · rename_i j hj
    split at h
    · cases h
    · split at h
      · rename_i hfailed
        cases h
        obtain ⟨-, rfl⟩ := mem_of_find? hj
        exact ⟨writes_replace (k := j.requeue now) hs hj, j, hj, hfailed, rfl⟩
      · cases h

/-- Its owner may put a job back that has failed for good. -/
theorem exists_retryFailed (hj : s.find? id = some j) (hfailed : j.status.isFailed = true)
    (now : Instant) : ∃ k t, s.retryFailed j.owner id now = .ok (k, t) := by
  unfold retryFailed
  simp only [hj, hfailed, bne_self_eq_false, Bool.false_eq_true, if_false, if_true]
  exact ⟨_, _, rfl⟩

/-- Each call writes the job that its answer tells of, and nothing besides. -/
theorem step_writes (hs : s.Distinct) (now : Instant) (c : JobCall) :
    s.Writes (c.written? (c.step s now).1) (c.step s now).2 := by
  cases c with
  | enqueue j =>
    simp only [JobCall.step]
    split
    · rename_i t ht
      exact (writes_enqueue hs ht).2
    · exact .same hs
  | get owner id =>
    have hnone : JobCall.written? (.get owner id) (s.get owner id) = none := by
      cases s.get owner id <;> rfl
    simp only [JobCall.step, hnone]
    exact .same hs
  | update j =>
    simp only [JobCall.step]
    split
    · rename_i t ht
      exact writes_update hs ht
    · exact .same hs
  | claimNext => exact (writes_claimNext hs now).1
  | retryFailed owner id =>
    simp only [JobCall.step]
    split
    · rename_i j t ht
      exact (writes_retryFailed hs ht).1
    · exact .same hs

/-- What is written is a job that is submitted, an update, or a stored job that is claimed or put
back.  These are the cases in which later results on jobs are split. -/
theorem written_cases (hs : s.Distinct) {c : JobCall}
    (hk : c.written? (c.step s now).1 = some k) :
    (c = .enqueue k ∧ s.find? k.id = none) ∨ c = .update k ∨
      (∃ j, s.find? k.id = some j ∧ j.isDue now = true ∧ k = j.claim now) ∨
      ∃ j, s.find? k.id = some j ∧ j.status.isFailed = true ∧ k = j.requeue now := by
  cases c with
  | enqueue l =>
    simp only [JobCall.step] at hk
    split at hk
    · rename_i t ht
      cases hk
      exact Or.inl ⟨rfl, (writes_enqueue hs ht).1⟩
    · cases hk
  | get owner id =>
    simp only [JobCall.step] at hk
    cases hget : s.get owner id <;> rw [hget] at hk <;> cases hk
  | update l =>
    simp only [JobCall.step] at hk
    split at hk
    · cases hk
      exact Or.inr (Or.inl rfl)
    · cases hk
  | claimNext =>
    obtain ⟨j, hj, hdue, rfl⟩ := (writes_claimNext hs now).2 k hk
    exact Or.inr (Or.inr (Or.inl ⟨j, hj, hdue, rfl⟩))
  | retryFailed owner id =>
    simp only [JobCall.step] at hk
    split at hk
    · rename_i l t ht
      cases hk
      obtain ⟨-, j, hj, hfailed, rfl⟩ := writes_retryFailed hs ht
      obtain ⟨-, rfl⟩ := mem_of_find? hj
      exact Or.inr (Or.inr (Or.inr ⟨j, hj, hfailed, rfl⟩))
    · cases hk

/-- A running job is overwritten by an update, and by no other call: a claim takes a job that waits,
and one that is put back has failed. -/
theorem eq_update_of_written (hs : s.Distinct) {c : JobCall}
    (hk : c.written? (c.step s now).1 = some k) (hj : s.find? k.id = some j)
    (hrunning : j.status = .running) : c = .update k := by
  rcases written_cases hs hk with ⟨-, hnone⟩ | hupdate | ⟨l, hl, hdue, -⟩ | ⟨l, hl, hfailed, -⟩
  · rw [hnone] at hj
    cases hj
  · exact hupdate
  · cases hl.symm.trans hj
    have hclaimable := Job.isClaimable_of_isDue hdue
    rw [hrunning] at hclaimable
    cases hclaimable
  · cases hl.symm.trans hj
    rw [hrunning] at hfailed
    cases hfailed

/-- What holds of all stored jobs and of the one that is written holds of all jobs afterwards. -/
theorem Writes.forall_stored {p : Job → Prop} {k? : Option Job} (h : s.Writes k? t)
    (hs : ∀ id j, s.find? id = some j → p j) (hk : ∀ k, k? = some k → p k) :
    ∀ id j, t.find? id = some j → p j := by
  intro id j hj
  rcases h.find? id with hsame | ⟨hgone, -⟩
  · rw [hj] at hsame
    unfold overlay at hsame
    split at hsame
    · rename_i k
      split at hsame
      · cases hsame
        exact hk _ rfl
      · exact hs id j hsame.symm
    · exact hs id j hsame.symm
  · rw [hgone] at hj
    cases hj

end JobStore

end Marketplace
