import Marketplace.Proofs.Job.Career
set_option autoImplicit false

/-!
# The time of the next run

Whenever a job has come to its end, what is left of its schedule is settled by the results of its
runs: nothing, unless it rested after a failure and then failed once too often
(`Job.Life.scheduledAt_eq_none_iff`).  Such a job keeps the time of its last run as if another one
were to come (`Job.Life.exists_scheduled`).
-/

namespace Marketplace

namespace Job

variable {j k : Job} {claims : List Instant} {results : List JobResult} {result : JobResult}
  {started ended now t : Instant}

/-- What a job goes through from the time that it is made.  The lists are the times at which it has
been claimed and the results of its runs since it was made or put back, the latest ones first. -/
inductive Life : List Instant → List JobResult → Job → Prop
  | new (id : JobId) (now : Instant) (owner : UserId) (payload : JobPayload)
      (policy : RetryPolicy) :
    Life [] [] { Job.new id now owner payload with policy := policy }
  | claim {claims : List Instant} {results : List JobResult} {j : Job} {now : Instant}
      (h : Life claims results j) (hdue : j.isDue now = true) :
    Life (now :: claims) results (j.claim now)
  | finish {claims : List Instant} {results : List JobResult} {j k : Job} {started ended : Instant}
      {result : JobResult} (h : Life claims results j) (hrunning : j.status = .running)
      (hfinish : j.finish started ended result = some k) :
    Life claims (result :: results) k
  | requeue {claims : List Instant} {results : List JobResult} {j : Job} {now : Instant}
      (h : Life claims results j) (hfailed : j.status.isFailed = true) :
    Life [] [] (j.requeue now)

/-- What the end of a run makes of the schedule. -/
theorem scheduledAt_of_finish (h : j.finish started ended result = some k) :
    (∃ output, result = .success output ∧ k.status = .succeeded ∧ k.scheduledAt = none) ∨
      (∃ reason, result = .fatal reason ∧ k.status = .failed reason j.attempt ∧
        k.scheduledAt = none) ∨
      ∃ error, result = .failure error ∧
        ((k.status = .retrying error j.attempt ∧ k.scheduledAt ≠ none) ∨
          (k.status = .failed error j.attempt ∧ k.scheduledAt = j.scheduledAt)) := by
  cases result with
  | success output =>
    cases h
    exact Or.inl ⟨output, rfl, rfl, rfl⟩
  | fatal reason =>
    cases h
    exact Or.inr (Or.inl ⟨reason, rfl, rfl, rfl⟩)
  | failure error =>
    refine Or.inr (Or.inr ⟨error, rfl, ?_⟩)
    simp only [finish, fail] at h
    split at h
    · obtain ⟨t, -, rfl⟩ := Option.map_eq_some_iff.mp h
      exact Or.inl ⟨rfl, Option.some_ne_none t⟩
    · cases h
      exact Or.inr ⟨rfl, rfl⟩

/-- The results end in a failure that is not the first one. -/
def FailsAgain (results : List JobResult) : Prop :=
  ∃ error result before, results = .failure error :: result :: before

theorem failsAgain_failure_iff {error : String} :
    FailsAgain (.failure error :: results) ↔ results ≠ [] := by
  cases results with
  | nil => simp [FailsAgain]
  | cons result before => simp [FailsAgain]

theorem not_failsAgain_cons (h : ∀ error, result ≠ .failure error) :
    ¬FailsAgain (result :: results) := by
  intro hagain
  obtain ⟨error, _, _, heq⟩ := hagain
  exact h error (List.cons.inj heq).1

/-- What the schedule of a job tells of its life. -/
structure Scheduled (claims : List Instant) (results : List JobResult) (j : Job) : Prop where
  /-- As long as the job goes on, it has a time if it has been run. -/
  going : ¬j.status.isTerminal = true → (j.scheduledAt = none ↔ results = [])
  ended : j.status.isTerminal = true → (j.scheduledAt = none ↔ ¬FailsAgain results)
  succeeded : j.status = .succeeded → j.scheduledAt = none
  /-- The time has come when the job is claimed. -/
  past : ¬j.status.isClaimable = true → ∀ t, j.scheduledAt = some t →
    ∃ now, claims.head? = some now ∧ t.le now = true

namespace Scheduled

/-- A job without a time has not been run yet, or has come to its end by another way. -/
theorem of_none (hnone : j.scheduledAt = none)
    (hgoing : ¬j.status.isTerminal = true → results = [])
    (hended : j.status.isTerminal = true → ¬FailsAgain results) :
    Scheduled claims results j := by
  refine ⟨fun hgoes => iff_of_true hnone (hgoing hgoes),
    fun hend => iff_of_true hnone (hended hend),
    fun _ => hnone, ?_⟩
  intro _ t ht
  rw [hnone] at ht
  cases ht

theorem claim (h : Scheduled claims results j) (hdue : j.isDue now = true) :
    Scheduled (now :: claims) results (j.claim now) := by
  obtain ⟨hclaimable, hready⟩ := Bool.and_eq_true_iff.mp hdue
  have hgoing := h.going (JobStatus.not_isTerminal_of_isClaimable hclaimable)
  refine ⟨fun _ => hgoing, nofun, nofun, ?_⟩
  intro _ t ht
  have hscheduled : j.scheduledAt = some t := ht
  rw [isReady, hscheduled] at hready
  exact ⟨now, rfl, hready⟩

theorem finish (h : Scheduled claims results j) (hrunning : j.status = .running)
    (hfinish : j.finish started ended result = some k) :
    Scheduled claims (result :: results) k := by
  have hgoing : j.scheduledAt = none ↔ results = [] :=
    h.going (by simp [hrunning, JobStatus.isTerminal])
  have hpast := h.past (by simp [hrunning, JobStatus.isClaimable])
  rcases scheduledAt_of_finish hfinish with ⟨output, rfl, hstatus, hnone⟩ |
    ⟨reason, rfl, hstatus, hnone⟩ | ⟨error, rfl, ⟨hstatus, hsome⟩ | ⟨hstatus, hsame⟩⟩
  · exact .of_none hnone (by simp [hstatus, JobStatus.isTerminal])
      fun _ => not_failsAgain_cons (by simp)
  · exact .of_none hnone (by simp [hstatus, JobStatus.isTerminal])
      fun _ => not_failsAgain_cons (by simp)
  · refine ⟨fun _ => iff_of_false hsome (List.cons_ne_nil _ _), ?_, ?_, ?_⟩
    · simp [hstatus, JobStatus.isTerminal]
    · simp [hstatus]
    · simp [hstatus, JobStatus.isClaimable]
  · -- The time of the run that has just ended stays where it is.
    refine ⟨?_, ?_, ?_, ?_⟩
    · simp [hstatus, JobStatus.isTerminal]
    · intro _
      rw [hsame, hgoing, failsAgain_failure_iff, not_ne_iff]
    · simp [hstatus]
    · intro _ t ht
      exact hpast t (hsame ▸ ht)

end Scheduled

/-- It is so throughout a job's life. -/
theorem Life.scheduled (h : Life claims results j) : Scheduled claims results j := by
  induction h with
  | new id now owner payload policy => exact .of_none rfl (fun _ => rfl) nofun
  | claim _ hdue ih => exact ih.claim hdue
  | finish _ hrunning hfinish ih => exact ih.finish hrunning hfinish
  | requeue _ _ _ => exact .of_none rfl (fun _ => rfl) nofun

/-- A job that has come to its end has no time of a next run, unless its last run was one of several
and failed in a way that allows of another one.  Then it has the time of that last run, which had
come when the job was claimed for it. -/
theorem Life.scheduledAt_eq_none_iff (h : Life claims results j)
    (hend : j.status.isTerminal = true) :
    (j.scheduledAt = none ↔ ¬FailsAgain results) ∧
      (j.status = .succeeded → j.scheduledAt = none) ∧
      ∀ t, j.scheduledAt = some t → ∃ now, claims.head? = some now ∧ t.le now = true := by
  have hscheduled := h.scheduled
  have hover : ¬j.status.isClaimable = true := fun hclaimable =>
    JobStatus.not_isTerminal_of_isClaimable hclaimable hend
  exact ⟨hscheduled.ended hend, hscheduled.succeeded, hscheduled.past hover⟩

/-- A job that may be run twice, after it has been claimed for the second time. -/
def lastRun : Job :=
  { Job.new (.ofNat 1) ⟨0, 0⟩ ⟨1⟩ (.notifyOrderPlaced ⟨1⟩ ⟨1⟩) with
    policy := .fixed 2 (.ofSeconds 1), status := .running, attempt := 2, updatedAt := ⟨1, 0⟩,
    scheduledAt := some ⟨1, 0⟩, history := [⟨1, ⟨0, 0⟩, ⟨0, 0⟩, some "busy", 0⟩] }

theorem life_lastRun : Life [⟨1, 0⟩, ⟨0, 0⟩] [.failure "busy"] lastRun := by
  have hnew : Life [] [] _ := .new (.ofNat 1) ⟨0, 0⟩ ⟨1⟩ (.notifyOrderPlaced ⟨1⟩ ⟨1⟩)
    (.fixed 2 (.ofSeconds 1))
  have hfirst : Life [⟨0, 0⟩] [] _ := hnew.claim rfl
  have hfailed : Life [⟨0, 0⟩] [.failure "busy"] _ :=
    hfirst.finish rfl (rfl : Job.finish _ ⟨0, 0⟩ ⟨0, 0⟩ (.failure "busy") = some _)
  exact hfailed.claim (by decide +kernel)

/-- If the second run succeeds, there is no time of a next run. -/
theorem Life.scheduledAt_eq_none_of_lastRun : ∃ k, Life [⟨1, 0⟩, ⟨0, 0⟩]
    [.success none, .failure "busy"] k ∧ k.status.isTerminal = true ∧ k.scheduledAt = none := by
  have hlife : Life [⟨1, 0⟩, ⟨0, 0⟩] [.success none, .failure "busy"] _ :=
    life_lastRun.finish rfl (rfl : lastRun.finish ⟨1, 0⟩ ⟨1, 0⟩ (.success none) = some _)
  exact ⟨_, hlife, rfl, (hlife.scheduledAt_eq_none_iff rfl).1.mpr nofun⟩

/-- If it fails, the job has failed for good and is still shown with a time of a next run. -/
theorem Life.exists_scheduled : ∃ k, Life [⟨1, 0⟩, ⟨0, 0⟩] [.failure "busy", .failure "busy"] k ∧
    k.status = .failed "busy" 2 ∧ k.scheduledAt = some ⟨1, 0⟩ ∧
      k.view.member? "scheduled_at" = some (.text "1970-01-01T00:00:01Z") := by
  have hlife : Life [⟨1, 0⟩, ⟨0, 0⟩] [.failure "busy", .failure "busy"] _ :=
    life_lastRun.finish rfl (rfl : lastRun.finish ⟨1, 0⟩ ⟨1, 0⟩ (.failure "busy") = some _)
  exact ⟨_, hlife, rfl, rfl, by rfl⟩

end Job

end Marketplace
