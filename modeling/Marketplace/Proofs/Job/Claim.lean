import Marketplace.Proofs.Job.Career
import Marketplace.Proofs.Job.Order
set_option autoImplicit false

/-!
# Claiming jobs

A claim takes the oldest job that waits for a run and whose time has come, begins that run, and
leaves all other jobs alone; in which order the store keeps its jobs makes no difference.  Jobs that
were new when they were submitted are run no more often than their policies allow
(`JobStore.claimNext_oldest`).
-/

namespace Marketplace

/-! ## Jobs that wait -/

namespace Job

variable {j : Job} {now : Instant}

/-- The job waits for a run, and its time has come. -/
structure Waits (j : Job) (now : Instant) : Prop where
  claimable : j.status = .pending ∨ ∃ error attempt, j.status = .retrying error attempt
  due : ∀ t, j.scheduledAt = some t → t.le now = true

/-- The test that claiming makes says just that the job waits. -/
theorem isDue_iff : j.isDue now = true ↔ j.Waits now := by
  have hclaimable : j.status.isClaimable = true ↔
      j.status = .pending ∨ ∃ error attempt, j.status = .retrying error attempt := by
    cases j.status <;> simp [JobStatus.isClaimable]
  have hready : j.isReady now = true ↔ ∀ t, j.scheduledAt = some t → t.le now = true := by
    cases hscheduled : j.scheduledAt <;> simp [isReady, hscheduled]
  rw [isDue, Bool.and_eq_true, hclaimable, hready]
  constructor
  · intro h
    exact ⟨h.1, h.2⟩
  · intro h
    exact ⟨h.claimable, h.due⟩

end Job

namespace JobStore

variable {s : JobStore} {jobs jobs' : List Job} {j k : Job} {now : Instant}

/-- Of the jobs that wait, the job was made first. -/
structure IsNext (jobs : List Job) (now : Instant) (j : Job) : Prop where
  mem : j ∈ jobs
  waits : j.Waits now
  first : ∀ k ∈ jobs, k.Waits now → k ≠ j → j.made < k.made

/-- Which job is next does not depend on the sequence in which the jobs are kept. -/
theorem IsNext.perm (h : IsNext jobs now j) (hperm : jobs'.Perm jobs) : IsNext jobs' now j :=
  ⟨hperm.mem_iff.mpr h.mem, h.waits, fun k hk => h.first k (hperm.mem_iff.mp hk)⟩

/-- There is no tie: jobs of one time have different identifiers. -/
theorem isNext_of_oldest? (hs : s.Distinct)
    (h : oldest? (s.jobs.filter fun k => k.isDue now) = some j) : IsNext s.jobs now j := by
  obtain ⟨hmem, hdue⟩ := List.mem_filter.mp (mem_of_oldest? h)
  refine ⟨hmem, Job.isDue_iff.mp hdue, ?_⟩
  intro k hk hwaits hne
  have hkdue : k ∈ s.jobs.filter fun k => k.isDue now :=
    List.mem_filter.mpr ⟨hk, Job.isDue_iff.mpr hwaits⟩
  have hle : j.made ≤ k.made := by
    rw [← not_lt, ← Job.isBefore_iff_made_lt]
    exact not_isBefore_oldest? h hkdue
  refine lt_of_le_of_ne hle ?_
  intro hplace
  exact hne (hs.eq_of_id_eq hk hmem (JobId.eq_of_placeAt_eq hplace).symm)

/-- The next job is claimed, and nothing else is changed. -/
theorem claimNext_of_isNext (hs : s.Distinct) (h : IsNext s.jobs now j) :
    s.claimNext now = (some (j.claim now), { s with jobs := replace s.jobs (j.claim now) }) := by
  refine claimNext_eq hs (hs.find?_eq_some_iff.mpr ⟨h.mem, rfl⟩) (Job.isDue_iff.mpr h.waits) ?_
  intro k hk hdue
  by_cases hsame : k = j
  · exact Or.inl (congrArg Job.id hsame)
  · exact Or.inr (Job.isBefore_iff_made_lt.mpr (h.first k hk (Job.isDue_iff.mp hdue) hsame))

/-- Either no job waits, or one of those that do is the oldest. -/
theorem claimNext_cases (hs : s.Distinct) (now : Instant) :
    ((∀ j ∈ s.jobs, ¬j.Waits now) ∧ s.claimNext now = (none, s)) ∨ ∃ j, IsNext s.jobs now j := by
  cases h : oldest? (s.jobs.filter fun k => k.isDue now) with
  | some j => exact Or.inr ⟨j, isNext_of_oldest? hs h⟩
  | none =>
    refine Or.inl ⟨?_, by simp only [claimNext, h]⟩
    intro j hj hwaits
    have hdue : j ∈ s.jobs.filter fun k => k.isDue now :=
      List.mem_filter.mpr ⟨hj, Job.isDue_iff.mpr hwaits⟩
    obtain ⟨k, hk⟩ := exists_oldest? hdue
    rw [h] at hk
    cases hk

/-- Under all other identifiers the same is stored as before. -/
theorem find?_replace_of_ne {id : JobId} (jobs : List Job) (hid : k.id ≠ id) :
    (replace jobs k).find? (fun j => j.id == id) = jobs.find? fun j => j.id == id := by
  induction jobs with
  | nil => rfl
  | cons j jobs ih =>
    have hcons : replace (j :: jobs) k = (if j.id == k.id then k else j) :: replace jobs k := rfl
    rw [hcons, List.find?_cons, List.find?_cons, ih]
    by_cases hj : j.id = k.id
    · have hother : (k.id == id) = false := beq_false_of_ne hid
      simp only [hj, beq_self_eq_true, if_true, hother]
    · simp only [beq_false_of_ne hj, Bool.false_eq_true, if_false]

/-- What claiming comes to at a time. -/
structure ClaimsOldest (s : JobStore) (now : Instant) : Prop where
  none_iff : (s.claimNext now).1 = none ↔ ∀ j ∈ s.jobs, ¬j.Waits now
  unchanged : (s.claimNext now).1 = none → (s.claimNext now).2 = s
  /-- The job that is claimed is the oldest, it is answered and stored as it runs then, and under
  all other identifiers the same is stored as before. -/
  claimed : ∀ k, (s.claimNext now).1 = some k → ∃ j, IsNext s.jobs now j ∧
    k = { j with status := .running, attempt := j.attempt + 1, updatedAt := now } ∧
    (s.claimNext now).2.find? j.id = some k ∧
    (∀ id, id ≠ j.id → (s.claimNext now).2.find? id = s.find? id) ∧
    (s.claimNext now).2.Distinct ∧ (s.claimNext now).2.retention = s.retention
  /-- The same is claimed in whatever order the jobs are kept. -/
  unordered : ∀ jobs : List Job, jobs.Perm s.jobs →
    (claimNext ⟨jobs, s.retention⟩ now).1 = (s.claimNext now).1 ∧
      (claimNext ⟨jobs, s.retention⟩ now).2.jobs.Perm (s.claimNext now).2.jobs

/-- If no job waits, nothing is claimed and nothing changes. -/
theorem claimsOldest_of_none (hs : s.Distinct) (hnone : ∀ j ∈ s.jobs, ¬j.Waits now)
    (hclaim : s.claimNext now = (none, s)) : s.ClaimsOldest now := by
  refine ⟨?_, ?_, ?_, ?_⟩
  · rw [hclaim]
    exact iff_of_true rfl hnone
  · rw [hclaim]
    exact fun _ => rfl
  · rw [hclaim]
    intro k hk
    exact absurd hk.symm (Option.some_ne_none k)
  · intro jobs hperm
    have hs' : Distinct ⟨jobs, s.retention⟩ := (hperm.map Job.id).nodup_iff.mpr hs
    rcases claimNext_cases hs' now with ⟨-, hclaim'⟩ | ⟨j, hj⟩
    · rw [hclaim, hclaim']
      exact ⟨rfl, hperm⟩
    · exact absurd hj.waits (hnone j (hperm.mem_iff.mp hj.mem))

theorem claimsOldest_of_isNext (hs : s.Distinct) (hj : IsNext s.jobs now j) :
    s.ClaimsOldest now := by
  have hclaim := claimNext_of_isNext hs hj
  have hfind : s.find? j.id = some j := hs.find?_eq_some_iff.mpr ⟨hj.mem, rfl⟩
  refine ⟨?_, ?_, ?_, ?_⟩
  · rw [hclaim]
    exact iff_of_false (Option.some_ne_none _) fun hnone => hnone j hj.mem hj.waits
  · rw [hclaim]
    exact fun hnone => absurd hnone (Option.some_ne_none _)
  · intro k hk
    rw [hclaim] at hk ⊢
    cases hk
    have hwrites := writes_replace (k := j.claim now) hs hfind
    refine ⟨j, hj, rfl, hwrites.find?_of_written rfl rfl, ?_, hwrites.distinct, rfl⟩
    intro id hid
    exact find?_replace_of_ne (k := j.claim now) s.jobs (Ne.symm hid)
  · intro jobs hperm
    have hs' : Distinct ⟨jobs, s.retention⟩ := (hperm.map Job.id).nodup_iff.mpr hs
    have hj' : IsNext (JobStore.mk jobs s.retention).jobs now j := hj.perm hperm
    rw [hclaim, claimNext_of_isNext hs' hj']
    exact ⟨rfl, hperm.map _⟩

end JobStore

/-! ## Counting runs -/

namespace Job

variable {j k : Job} {now started ended : Instant} {result : JobResult}

/-- The job has been run no more often than its policy allows, which always allows one run, and
fewer times if it waits for another run; the limit can be written in 32 bits. -/
structure InBudget (j : Job) : Prop where
  limit : j.policy.maxAttempts < 2 ^ 32
  attempt : j.attempt ≤ max j.policy.maxAttempts 1
  more : j.status.isClaimable = true → j.attempt < max j.policy.maxAttempts 1

theorem InBudget.attempt_lt (h : j.InBudget) : j.attempt < 2 ^ 32 := by
  have hlimit := h.limit
  have hattempt := h.attempt
  omega

theorem InBudget.of_attempt_eq_zero (hattempt : j.attempt = 0)
    (hlimit : j.policy.maxAttempts < 2 ^ 32) : j.InBudget := by
  refine ⟨hlimit, ?_, fun _ => ?_⟩
  · omega
  · omega

theorem InBudget.claim (h : j.InBudget) (hdue : j.isDue now = true) : (j.claim now).InBudget := by
  refine ⟨h.limit, h.more (isClaimable_of_isDue hdue), ?_⟩
  intro hclaimable
  cases hclaimable

theorem InBudget.requeue (h : j.InBudget) : (j.requeue now).InBudget :=
  .of_attempt_eq_zero rfl h.limit

/-- After a failure there is another run only if the policy allows it. -/
theorem InBudget.finish (h : j.InBudget) (hk : j.finish started ended result = some k) :
    k.InBudget := by
  obtain ⟨-, hpolicy, hattempt, hstatus, -, -⟩ := finish_spec hk
  refine ⟨?_, ?_, ?_⟩
  · rw [hpolicy]
    exact h.limit
  · rw [hpolicy, hattempt]
    exact h.attempt
  · intro hclaimable
    rw [hstatus] at hclaimable
    rw [hpolicy, hattempt]
    cases result with
    | success o => cases hclaimable
    | fatal e => cases hclaimable
    | failure e =>
      simp only [RetryPolicy.statusAfter] at hclaimable
      split at hclaimable
      · rename_i hmore
        have hlt : j.attempt < j.policy.maxAttempts := by
          simpa [RetryPolicy.allowsAnother] using hmore
        omega
      · cases hclaimable

end Job

/-- A job that is submitted has not been run, and its limit can be written in 32 bits. -/
def Call.SubmitsNew : Call → Prop
  | .job (.enqueue j) => j.attempt = 0 ∧ j.policy.maxAttempts < 2 ^ 32
  | _ => True

/-- Workers and clients that submit new jobs only. -/
structure Program.StaffOfNew (p : Program Unit) : Prop where
  staff : p.Staff
  submitsNew : p.Calls Call.SubmitsNew

namespace Pool

variable {log : List Event} {P : Pool}

/-- What is submitted is new, what is handed back has been claimed, and so the stored jobs are
within their budgets. -/
theorem Past.inBudget (h : P.Past Program.StaffOfNew log) :
    ∀ id j, P.world.jobs.find? id = some j → j.InBudget := by
  induction h with
  | start clock retention =>
    intro id j hj
    cases hj
  | begin _ hp ih => exact ih
  | environment _ clock files ih => exact ih
  | @deed log P i a a' d w' hpast ha hd ih =>
    have hheld := (hpast.mono fun p hp => hp.staff).held
    have hcalls := hpast.calls (fun p hp => hp.submitsNew) ha
    refine (hd.writes hheld.distinct).forall_stored ih ?_
    intro k hk
    have hd' := hd
    cases hd with
    | @call c next r _ m hprogram _ _ hact =>
      cases c with
      | job c =>
        cases hact
        rcases JobStore.written_cases hheld.distinct hk with
          ⟨rfl, -⟩ | rfl | ⟨j, hj, hdue, rfl⟩ | ⟨j, hj, -, rfl⟩
        · rw [hprogram] at hcalls
          exact .of_attempt_eq_zero hcalls.1.1 hcalls.1.2
        · obtain ⟨j, started, ended, result, hj, hfinish⟩ := hheld.report ha hd'
          exact (ih j.id j (hheld.stored i j hj).1).finish hfinish
        · exact (ih _ j hj).claim hdue
        · exact (ih _ j hj).requeue
      | _ => cases hk
    | finish _ => cases hk
    | drop _ => cases hk

end Pool

namespace JobStore

/-- A claim takes the oldest job that waits, if there is one, and nothing else changes.  Where
workers hand back what they claim and the jobs that are submitted are new, a claimed job has been
run no more often than its policy allows. -/
theorem claimNext_oldest :
    (∀ (s : JobStore) (now : Instant), s.Distinct → s.ClaimsOldest now) ∧
      ∀ (log : List Event) (P : Pool), P.Past Program.StaffOfNew log → ∀ now k,
        (P.world.jobs.claimNext now).1 = some k →
          k.attempt ≤ max k.policy.maxAttempts 1 ∧ k.attempt < 2 ^ 32 := by
  refine ⟨?_, ?_⟩
  · intro s now hs
    rcases claimNext_cases hs now with ⟨hnone, hclaim⟩ | ⟨j, hj⟩
    · exact claimsOldest_of_none hs hnone hclaim
    · exact claimsOldest_of_isNext hs hj
  · intro log P hpast now k hk
    obtain ⟨j, hj, hdue, rfl⟩ := (writes_claimNext hpast.reachable.distinct_jobs now).2 k hk
    have hbudget := (hpast.inBudget j.id j hj).claim hdue
    exact ⟨hbudget.attempt, hbudget.attempt_lt⟩

/-- Two clients that each submit a job. -/
def rush : List (Program Unit) := [client ⟨1⟩, client ⟨2⟩]
where
  client (buyer : UserId) : Program Unit :=
    (JobService.create buyer (.notifyOrderPlaced buyer ⟨1⟩)).bind fun j =>
      (JobService.submit j).run.bind fun _ => .done ()

theorem staffOfNew_rush : ∀ p ∈ rush, p.StaffOfNew := by
  have hclient (buyer : UserId) : (rush.client buyer).StaffOfNew := by
    refine ⟨.client ⟨rfl, fun now => ⟨rfl, fun id => ?_⟩⟩, trivial,
      fun now => ⟨trivial, fun id => ?_⟩⟩
    · exact (JobService.isClient_submit _).bind fun _ => trivial
    · have hlimit : RetryPolicy.usual.maxAttempts < 2 ^ 32 := by decide
      exact ⟨⟨rfl, hlimit⟩, fun _ => trivial⟩
  intro p hp
  rw [rush, List.mem_cons, List.mem_singleton] at hp
  rcases hp with rfl | rfl
  · exact hclient ⟨1⟩
  · exact hclient ⟨2⟩

/-- Of two jobs that are made at one time, one is claimed, and this is its first run. -/
theorem claimNext_oldest_in_rush : ∃ (log : List Event) (P : Pool) (k : Job),
    P.Past Program.StaffOfNew log ∧ P.world.jobs.Distinct ∧ P.world.jobs.jobs.length = 2 ∧
      P.world.jobs.ClaimsOldest P.world.clock ∧
      (P.world.jobs.claimNext P.world.clock).1 = some k ∧ k.attempt = 1 ∧ k.attempt < 2 ^ 32 := by
  have hrecord : (Pool.record [0, 1, 0, 1, 0, 1] ⟨.start ⟨0, 0⟩ 3, rush.map .start⟩).any (fun r =>
        r.2.world.jobs.jobs.length == 2 &&
          (r.2.world.jobs.claimNext r.2.world.clock).1.any fun k => k.attempt == 1) = true := by
    decide +kernel
  simp only [Option.any_eq_true, Bool.and_eq_true, beq_iff_eq] at hrecord
  obtain ⟨⟨log, P⟩, hrecord, hlength, k, hk, hattempt⟩ := hrecord
  have hstart : Pool.Past Program.StaffOfNew [] ⟨.start ⟨0, 0⟩ 3, rush.map .start⟩ :=
    (Pool.Past.start ⟨0, 0⟩ 3).begin_all staffOfNew_rush
  have hpast := hstart.record hrecord
  have hdistinct := hpast.reachable.distinct_jobs
  exact ⟨log, P, k, hpast, hdistinct, hlength, claimNext_oldest.1 _ P.world.clock hdistinct, hk,
    hattempt, (claimNext_oldest.2 log P hpast P.world.clock k hk).2⟩

end JobStore

end Marketplace
