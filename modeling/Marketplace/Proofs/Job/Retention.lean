import Marketplace.Proofs.Job.Order
import Marketplace.Proofs.Sorting
set_option autoImplicit false

/-!
# Keeping finished jobs

When a job comes to its end, the finished jobs that were changed last are kept, as many as the store
is made to keep, and those before them go; jobs that wait or run always stay.  So there are never
too many finished jobs, and none goes as long as there are not (`JobStore.keeps_latest`).
-/

namespace Marketplace

namespace JobStore

variable {s t : JobStore} {jobs present kept kept' : List Job} {j k d : Job} {id : JobId}
  {limit : Nat} {now : Instant}

/-! ## The finished jobs -/

/-- The jobs that have come to their end. -/
def finished (jobs : List Job) : List Job := jobs.filter fun j => j.status.isTerminal

theorem mem_finished_iff : j ∈ finished jobs ↔ j ∈ jobs ∧ j.status.isTerminal = true :=
  List.mem_filter

/-- As many jobs are kept as may be, and these are the ones that were changed last.  The jobs that
are kept need not stand in any sequence, so the statement is on which they are. -/
structure KeepsLatest (limit : Nat) (present kept : List Job) : Prop where
  count : kept.length = min limit present.length
  nodup : kept.Nodup
  subset : ∀ j ∈ kept, j ∈ present
  latest : ∀ j ∈ kept, ∀ d ∈ present, d ∉ kept → d.changed < j.changed

theorem KeepsLatest.perm (h : KeepsLatest limit present kept) (hperm : kept'.Perm kept) :
    KeepsLatest limit present kept' := by
  refine ⟨hperm.length_eq.trans h.count, hperm.nodup_iff.mpr h.nodup, ?_, ?_⟩
  · intro j hj
    exact h.subset j (hperm.mem_iff.mp hj)
  · intro j hj d hd hgone
    exact h.latest j (hperm.mem_iff.mp hj) d hd fun hkept => hgone (hperm.mem_iff.mpr hkept)

/-- The finished jobs in the order in which they were changed last, the one that was changed first
in front. -/
def byChange (jobs : List Job) : List Job := (finished jobs).mergeSort isStaler

/-- Those of them that are too many. -/
def surplus (limit : Nat) (jobs : List Job) : List Job :=
  (byChange jobs).take ((finished jobs).length - limit)

/-- Those of them that may be kept. -/
def latest (limit : Nat) (jobs : List Job) : List Job :=
  (byChange jobs).drop ((finished jobs).length - limit)

theorem surplus_append_latest (limit : Nat) (jobs : List Job) :
    surplus limit jobs ++ latest limit jobs = byChange jobs := List.take_append_drop _ _

theorem mem_finished_of_mem_surplus (hd : d ∈ surplus limit jobs) : d ∈ finished jobs :=
  List.mem_mergeSort.mp (List.mem_of_mem_take hd)

theorem nodup_of_ids (hjobs : (jobs.map Job.id).Nodup) : (finished jobs).Nodup :=
  (List.Nodup.of_map Job.id hjobs).filter _

/-- There is no tie: jobs of one time have different identifiers, and the smaller one counts as
changed earlier. -/
theorem pairwise_byChange (hjobs : (jobs.map Job.id).Nodup) :
    (byChange jobs).Pairwise fun j k => j.changed < k.changed := by
  refine pairwise_mergeSort_strict ?_ ?_ (nodup_of_ids hjobs) ?_
  · intro a b c hab hbc
    rw [isStaler_iff] at hab hbc ⊢
    exact hab.trans hbc
  · intro a b
    rw [Bool.or_eq_true, isStaler_iff, isStaler_iff]
    exact le_total a.changed b.changed
  · intro a ha b hb hne hab
    refine lt_of_le_of_ne (isStaler_iff.mp hab) ?_
    intro hplace
    have hid : a.id = b.id := JobId.eq_of_placeAt_eq hplace
    exact hne
      (List.inj_on_of_nodup_map hjobs (mem_finished_iff.mp ha).1 (mem_finished_iff.mp hb).1 hid)

/-- What is left at the end of a sorted list are the greatest, and as many as there may be. -/
theorem keepsLatest_latest (hjobs : (jobs.map Job.id).Nodup) (limit : Nat) :
    KeepsLatest limit (finished jobs) (latest limit jobs) := by
  have hperm : (byChange jobs).Perm (finished jobs) := List.mergeSort_perm _ _
  have hnodup : (byChange jobs).Nodup := hperm.nodup_iff.mpr (nodup_of_ids hjobs)
  have hsorted := pairwise_byChange hjobs
  rw [← surplus_append_latest limit, List.pairwise_append] at hsorted
  refine ⟨?_, ?_, ?_, ?_⟩
  · rw [latest, List.length_drop, hperm.length_eq]
    omega
  · exact hnodup.sublist (List.drop_sublist _ _)
  · intro j hj
    exact hperm.mem_iff.mp (List.mem_of_mem_drop hj)
  · intro j hj d hd hgone
    have hall : d ∈ surplus limit jobs ++ latest limit jobs := by
      rw [surplus_append_latest]
      exact hperm.mem_iff.mpr hd
    rcases List.mem_append.mp hall with hsurplus | hlatest
    · exact hsorted.2.2 d hsurplus j hj
    · exact absurd hlatest hgone

/-! ## Pruning -/

theorem prune_eq (limit : Nat) (jobs : List Job) :
    prune limit jobs = jobs.filter fun j => !(surplus limit jobs).any fun d => d.id == j.id := rfl

/-- Those that go share their identifiers with no others, so exactly they go, although a job is
struck out by its identifier. -/
theorem mem_prune_iff (hjobs : (jobs.map Job.id).Nodup) :
    j ∈ prune limit jobs ↔ j ∈ jobs ∧ j ∉ surplus limit jobs := by
  rw [prune_eq, List.mem_filter, Bool.not_eq_true', List.any_eq_false]
  refine and_congr_right fun hj => ?_
  constructor
  · intro hother hgone
    exact hother j hgone (beq_self_eq_true j.id)
  · intro hstays d hd hid
    have hmem := (mem_finished_iff.mp (mem_finished_of_mem_surplus hd)).1
    rw [List.inj_on_of_nodup_map hjobs hmem hj (beq_iff_eq.mp hid)] at hd
    exact hstays hd

/-- A job that has not come to its end is not among those that are too many. -/
theorem mem_prune_iff_of_unfinished (hjobs : (jobs.map Job.id).Nodup)
    (hj : ¬j.status.isTerminal = true) : j ∈ prune limit jobs ↔ j ∈ jobs := by
  rw [mem_prune_iff hjobs]
  refine and_iff_left fun hgone => hj ?_
  exact (mem_finished_iff.mp (mem_finished_of_mem_surplus hgone)).2

/-- Pruning keeps the finished jobs that were changed last. -/
theorem keepsLatest_prune (hjobs : (jobs.map Job.id).Nodup) (limit : Nat) :
    KeepsLatest limit (finished jobs) (finished (prune limit jobs)) := by
  have hlatest := keepsLatest_latest hjobs limit
  have hnodup : (finished (prune limit jobs)).Nodup :=
    nodup_of_ids (hjobs.sublist (List.filter_sublist.map Job.id))
  have hsplit : (surplus limit jobs ++ latest limit jobs).Nodup := by
    rw [surplus_append_latest]
    exact (List.mergeSort_perm _ _).nodup_iff.mpr (nodup_of_ids hjobs)
  refine hlatest.perm ((List.perm_ext_iff_of_nodup hnodup hlatest.nodup).mpr fun j => ?_)
  rw [mem_finished_iff, mem_prune_iff hjobs]
  constructor
  · rintro ⟨⟨hj, hstays⟩, hterminal⟩
    have hall : j ∈ surplus limit jobs ++ latest limit jobs := by
      rw [surplus_append_latest]
      exact List.mem_mergeSort.mpr (mem_finished_iff.mpr ⟨hj, hterminal⟩)
    exact (List.mem_append.mp hall).resolve_left hstays
  · intro hj
    obtain ⟨hmem, hterminal⟩ := mem_finished_iff.mp (hlatest.subset j hj)
    exact ⟨⟨hmem, fun hgone => List.disjoint_of_nodup_append hsplit hgone hj⟩, hterminal⟩

/-! ## Updates -/

theorem mem_replace_iff : j ∈ replace jobs k ↔
    (j = k ∧ k.id ∈ jobs.map Job.id) ∨ (j ∈ jobs ∧ j.id ≠ k.id) := by
  rw [replace, List.mem_map]
  constructor
  · rintro ⟨x, hx, rfl⟩
    split
    · rename_i hid
      exact Or.inl ⟨rfl, List.mem_map.mpr ⟨x, hx, beq_iff_eq.mp hid⟩⟩
    · rename_i hid
      exact Or.inr ⟨hx, fun hsame => hid (beq_iff_eq.mpr hsame)⟩
  · rintro (⟨rfl, hid⟩ | ⟨hj, hid⟩)
    · obtain ⟨x, hx, hsame⟩ := List.mem_map.mp hid
      exact ⟨x, hx, if_pos (beq_iff_eq.mpr hsame)⟩
    · exact ⟨j, hj, if_neg fun hsame => hid (beq_iff_eq.mp hsame)⟩

theorem finished_append_of_unfinished (hj : ¬j.status.isTerminal = true) :
    finished (jobs ++ [j]) = finished jobs := by
  simp [finished, List.filter_append, hj]

/-- A job that goes on takes no room among the finished ones, so there are no more of these than
before. -/
theorem finished_replace_sublist (hk : k.status.isTerminal = false) (jobs : List Job) :
    (finished (replace jobs k)).Sublist (finished jobs) := by
  induction jobs with
  | nil => exact List.nil_sublist _
  | cons j jobs ih =>
    have hcons : replace (j :: jobs) k = (if j.id == k.id then k else j) :: replace jobs k := rfl
    rw [hcons]
    by_cases hid : j.id = k.id
    · rw [if_pos (beq_iff_eq.mpr hid), finished, List.filter_cons_of_neg (by simp [hk])]
      exact ih.trans ((List.sublist_cons_self j jobs).filter _)
    · rw [if_neg (by simpa using hid)]
      simp only [finished, List.filter_cons]
      split
      · exact ih.cons_cons j
      · exact ih

theorem find?_eq_none_iff : s.find? id = none ↔ id ∉ s.jobs.map Job.id := by
  rw [find?, List.find?_eq_none, List.mem_map]
  constructor
  · rintro hnone ⟨j, hj, rfl⟩
    exact hnone j hj (beq_self_eq_true j.id)
  · intro hnone j hj hid
    exact hnone ⟨j, hj, beq_iff_eq.mp hid⟩

theorem mem_ids_of_find? (hj : s.find? id = some j) : id ∈ s.jobs.map Job.id := by
  obtain ⟨hmem, hid⟩ := mem_of_find? hj
  exact List.mem_map.mpr ⟨j, hmem, hid⟩

/-- What the store is like once a job that has come to its end is put in the place of its earlier
form. -/
structure Ends (s : JobStore) (k : Job) (t : JobStore) : Prop where
  distinct : t.Distinct
  retention : t.retention = s.retention
  /-- At first the job is there, and all jobs with other identifiers. -/
  present : ∀ j, j ∈ replace s.jobs k ↔ j = k ∨ (j ∈ s.jobs ∧ j.id ≠ k.id)
  /-- Of the finished ones those are kept that were changed last. -/
  finished : KeepsLatest s.retention (finished (replace s.jobs k)) (finished t.jobs)
  /-- Jobs that wait or run are kept as they are. -/
  unfinished : ∀ j, ¬j.status.isTerminal = true → (j ∈ t.jobs ↔ j ∈ s.jobs ∧ j.id ≠ k.id)

theorem update_of_terminal (hj : s.find? k.id = some j) (hk : k.status.isTerminal = true) :
    s.update k = .ok { s with jobs := prune s.retention (replace s.jobs k) } := by
  simp only [update, hj, hk, if_true]

/-- An update that brings a job to its end writes it first and prunes then, so the job that has just
ended is one of those that may go. -/
theorem ends_of_update (hs : s.Distinct) (hj : s.find? k.id = some j)
    (hk : k.status.isTerminal = true) :
    s.Ends k { s with jobs := prune s.retention (replace s.jobs k) } := by
  have hreplaced : ((replace s.jobs k).map Job.id).Nodup := by
    rw [map_id_replace]
    exact hs
  have hpresent (x : Job) : x ∈ replace s.jobs k ↔ x = k ∨ (x ∈ s.jobs ∧ x.id ≠ k.id) := by
    rw [mem_replace_iff, and_iff_left (mem_ids_of_find? hj)]
  refine ⟨(writes_update hs (update_of_terminal hj hk)).distinct, rfl, hpresent,
    keepsLatest_prune hreplaced s.retention, ?_⟩
  intro x hx
  rw [mem_prune_iff_of_unfinished hreplaced hx, hpresent]
  refine or_iff_right ?_
  rintro rfl
  exact hx hk

/-! ## Histories -/

/-- The stores that calls lead to, each made at some time, from a store without jobs on.  Which
calls may be made is left open, since some results need only that nobody submits finished jobs. -/
inductive Reached (admitted : JobCall → Prop) (limit : Nat) : JobStore → Prop
  | empty : Reached admitted limit (empty limit)
  | step {s : JobStore} {c : JobCall} (h : Reached admitted limit s) (hc : admitted c)
      (now : Instant) : Reached admitted limit (c.step s now).2

/-- A job that is submitted has not come to its end. -/
def SubmitsUnfinished : JobCall → Prop
  | .enqueue j => ¬j.status.isTerminal = true
  | _ => True

/-- What is put back takes the place of its earlier form. -/
theorem eq_of_retryFailed {owner : UserId} (h : s.retryFailed owner id now = .ok (k, t)) :
    k.status.isTerminal = false ∧ t = { s with jobs := replace s.jobs k } := by
  unfold retryFailed at h
  split at h
  · cases h
  · split at h
    · cases h
    · split at h
      · cases h
        exact ⟨rfl, rfl⟩
      · cases h

/-- What a call makes of the store: nothing, a job behind all others, a job in the place of another,
or that and a pruning. -/
theorem step_cases (s : JobStore) (now : Instant) (c : JobCall) :
    (c.step s now).2 = s ∨
      (∃ j, c = .enqueue j ∧ (c.step s now).2 = { s with jobs := s.jobs ++ [j] }) ∨
      (∃ k, k.status.isTerminal = false ∧ (c.step s now).2 = { s with jobs := replace s.jobs k }) ∨
      ∃ k j, c = .update k ∧ k.status.isTerminal = true ∧ s.find? k.id = some j ∧
        (c.step s now).2 = { s with jobs := prune s.retention (replace s.jobs k) } := by
  cases c with
  | enqueue j =>
    cases hfind : s.find? j.id with
    | some k => exact Or.inl (by simp only [JobCall.step, enqueue, hfind])
    | none => exact Or.inr (Or.inl ⟨j, rfl, by simp only [JobCall.step, enqueue, hfind]⟩)
  | get owner id => exact Or.inl rfl
  | update k =>
    cases hfind : s.find? k.id with
    | none => exact Or.inl (by simp only [JobCall.step, update, hfind])
    | some j =>
      cases hk : k.status.isTerminal with
      | false =>
        refine Or.inr (Or.inr (Or.inl ⟨k, hk, ?_⟩))
        simp only [JobCall.step, update, hfind, hk, Bool.false_eq_true, if_false]
      | true =>
        refine Or.inr (Or.inr (Or.inr ⟨k, j, rfl, hk, hfind, ?_⟩))
        simp only [JobCall.step, update_of_terminal hfind hk]
  | claimNext =>
    cases hnext : oldest? (s.jobs.filter fun j => j.isDue now) with
    | none => exact Or.inl (by simp only [JobCall.step, claimNext, hnext])
    | some j =>
      exact Or.inr
        (Or.inr (Or.inl ⟨j.claim now, rfl, by simp only [JobCall.step, claimNext, hnext]⟩))
  | retryFailed owner id =>
    cases hretry : s.retryFailed owner id now with
    | error f => exact Or.inl (by simp only [JobCall.step, hretry])
    | ok r =>
      obtain ⟨k, t⟩ := r
      obtain ⟨hk, rfl⟩ := eq_of_retryFailed hretry
      exact Or.inr (Or.inr (Or.inl ⟨k, hk, by simp only [JobCall.step, hretry]⟩))

namespace Reached

variable {admitted : JobCall → Prop}

theorem distinct (h : Reached admitted limit s) : s.Distinct := by
  induction h with
  | empty => exact List.nodup_nil
  | step _ _ now ih => exact (step_writes ih now _).distinct

theorem retention (h : Reached admitted limit s) : s.retention = limit := by
  induction h with
  | empty => rfl
  | @step s c _ _ now ih =>
    rcases step_cases s now c with h | ⟨_, _, h⟩ | ⟨_, _, h⟩ | ⟨_, _, _, _, _, h⟩
    all_goals
      rw [h]
      exact ih

/-- There are never more finished jobs than are kept.  Only an update finishes a job, and it
prunes. -/
theorem length_finished_le (h : Reached SubmitsUnfinished limit s) :
    (finished s.jobs).length ≤ limit := by
  induction h with
  | empty => exact Nat.zero_le limit
  | @step s c hs hc now ih =>
    rcases step_cases s now c with h | ⟨j, rfl, h⟩ | ⟨k, hk, h⟩ | ⟨k, j, rfl, hk, hj, h⟩
    · rw [h]
      exact ih
    · rw [h, finished_append_of_unfinished hc]
      exact ih
    · rw [h]
      exact (finished_replace_sublist hk s.jobs).length_le.trans ih
    · have hcount := (ends_of_update hs.distinct hj hk).finished.count
      rw [hs.retention] at hcount
      rw [h, hs.retention, hcount]
      exact Nat.min_le_left _ _

end Reached

/-- Nothing goes but when a job comes to its end and there are too many that have. -/
theorem lt_length_finished_of_gone {c : JobCall} (hs : s.Distinct) (hj : s.find? id = some j)
    (hgone : (c.step s now).2.find? id = none) :
    ∃ k, c = .update k ∧ k.status.isTerminal = true ∧
      s.retention < (finished (replace s.jobs k)).length := by
  have hmem := mem_ids_of_find? hj
  rw [find?_eq_none_iff] at hgone
  rcases step_cases s now c with h | ⟨k, -, h⟩ | ⟨k, -, h⟩ | ⟨k, -, rfl, hk, -, h⟩
  · rw [h] at hgone
    exact absurd hmem hgone
  · rw [h, List.map_append] at hgone
    exact absurd (List.mem_append_left _ hmem) hgone
  · rw [h, map_id_replace] at hgone
    exact absurd hmem hgone
  · refine ⟨k, rfl, hk, ?_⟩
    by_contra hfew
    have hreplaced : ((replace s.jobs k).map Job.id).Nodup := by
      rw [map_id_replace]
      exact hs
    have hnone : surplus s.retention (replace s.jobs k) = [] := by
      rw [surplus, Nat.sub_eq_zero_of_le (Nat.le_of_not_lt hfew), List.take_zero]
    rw [← map_id_replace s.jobs k] at hmem
    obtain ⟨x, hx, rfl⟩ := List.mem_map.mp hmem
    rw [h] at hgone
    refine hgone (List.mem_map.mpr ⟨x, ?_, rfl⟩)
    rw [mem_prune_iff hreplaced, hnone]
    exact ⟨hx, List.not_mem_nil⟩

/-- When a job comes to its end, the finished jobs that were changed last are kept and no others,
and jobs that wait or run stay.  So there are never too many finished jobs, and none goes as long as
there are not. -/
theorem keeps_latest :
    (∀ (s : JobStore) (k : Job), s.Distinct → k.status.isTerminal = true →
      (s.find? k.id = none → s.update k = .error (.notFound k.id)) ∧
      ∀ j, s.find? k.id = some j → ∃ t, s.update k = .ok t ∧ s.Ends k t) ∧
    (∀ (limit : Nat) (s : JobStore), Reached SubmitsUnfinished limit s →
      (finished s.jobs).length ≤ limit) ∧
    ∀ (limit : Nat) (s : JobStore), Reached (fun _ => True) limit s →
      ∀ (c : JobCall) (now : Instant) (id : JobId) (j : Job), s.find? id = some j →
        (c.step s now).2.find? id = none →
          ∃ k, c = .update k ∧ k.status.isTerminal = true ∧
            limit < (finished (replace s.jobs k)).length := by
  refine ⟨?_, fun limit s h => h.length_finished_le, ?_⟩
  · intro s k hs hk
    refine ⟨?_, ?_⟩
    · intro hnone
      simp only [update, hnone]
    · intro j hj
      exact ⟨_, update_of_terminal hj hk, ends_of_update hs hj hk⟩
  · intro limit s h c now id j hj hgone
    rw [← h.retention]
    exact lt_length_finished_of_gone h.distinct hj hgone

/-- Two jobs of one account that come to their ends at one time. -/
def pair (n : Nat) : Job := Job.new (.ofNat n) ⟨0, 0⟩ ⟨1⟩ (.notifyOrderPlaced ⟨1⟩ ⟨1⟩)
where
  ended (n : Nat) : Job := { pair n with status := .succeeded, updatedAt := ⟨5, 0⟩ }

/-- If one finished job is kept, the second one takes the place of the first one. -/
theorem keeps_latest_of_pair : ∃ s t : JobStore, Reached SubmitsUnfinished 1 s ∧
    (finished s.jobs).length ≤ 1 ∧ s.find? (.ofNat 1) = some (pair.ended 1) ∧
    s.update (pair.ended 2) = .ok t ∧ s.Ends (pair.ended 2) t ∧ t.find? (.ofNat 1) = none ∧
    1 < (finished (replace s.jobs (pair.ended 2))).length := by
  obtain ⟨hends, hfew, hgoes⟩ := keeps_latest
  have hreached (admitted : JobCall → Prop) (hsubmit : ∀ n, admitted (.enqueue (pair n)))
      (hupdate : admitted (.update (pair.ended 1))) :
      Reached admitted 1 ⟨[pair.ended 1, pair 2], 1⟩ :=
    ((Reached.empty.step (hsubmit 1) ⟨0, 0⟩).step (hsubmit 2) ⟨0, 0⟩).step hupdate ⟨5, 0⟩
  have hunfinished := hreached SubmitsUnfinished (fun n => nofun) trivial
  have hall := hreached (fun _ => True) (fun n => trivial) trivial
  obtain ⟨t, ht, hend⟩ := (hends _ (pair.ended 2) hall.distinct rfl).2 (pair 2) rfl
  have hsorted : byChange [pair.ended 1, pair.ended 2] = [pair.ended 1, pair.ended 2] :=
    List.mergeSort_of_pairwise (by decide)
  have hpruned : prune 1 (replace [pair.ended 1, pair 2] (pair.ended 2)) = [pair.ended 2] := by
    have hreplaced :
        replace [pair.ended 1, pair 2] (pair.ended 2) = [pair.ended 1, pair.ended 2] := rfl
    rw [hreplaced, prune_eq, surplus, hsorted]
    rfl
  have hupdate : JobStore.update ⟨[pair.ended 1, pair 2], 1⟩ (pair.ended 2) =
      .ok ⟨[pair.ended 2], 1⟩ := by
    rw [update_of_terminal (j := pair 2) rfl rfl, hpruned]
  cases ht.symm.trans hupdate
  have hstep : (JobCall.step ⟨[pair.ended 1, pair 2], 1⟩ ⟨5, 0⟩ (.update (pair.ended 2))).2 =
      ⟨[pair.ended 2], 1⟩ := by
    simp only [JobCall.step, hupdate]
  have hgone : JobStore.find? ⟨[pair.ended 2], 1⟩ (.ofNat 1) = none := by
    decide
  rw [← hstep] at hgone
  obtain ⟨k, hk, -, hmany⟩ :=
    hgoes 1 _ hall (.update (pair.ended 2)) ⟨5, 0⟩ (.ofNat 1) (pair.ended 1)
    rfl hgone
  cases hk
  rw [hstep] at hgone
  exact ⟨_, _, hunfinished, hfew 1 _ hunfinished, rfl, ht, hend, hgone, hmany⟩

end JobStore

end Marketplace
