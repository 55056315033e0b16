import Mathlib.Order.Bounds.Defs
import Mathlib.Order.Nat
import Marketplace.Proofs.Job.Turn
set_option autoImplicit false

/-!
# The runs of a job

How often a job is run and what becomes of it is settled by its policy and by the results that its
runs come to: it is run until a run does not fail or its policy allows no other one
(`Job.Fresh.course`).  A job that is put back after it failed for good starts anew, with all the
runs that it has behind it.
-/

namespace Marketplace

namespace JobResult

/-- The job may be tried again. -/
def isFailure : JobResult → Bool
  | .failure _ => true
  | _ => false

/-- What went wrong. -/
def error? : JobResult → Option String
  | .success _ => none
  | .failure e => some e
  | .fatal r => some r

/-- What a run that succeeded has to say. -/
def output? : JobResult → Option Json.Value
  | .success o => o
  | _ => none

end JobResult

namespace JobStatus

variable {s : JobStatus}

theorem not_isTerminal_of_isClaimable (h : s.isClaimable = true) : ¬s.isTerminal = true := by
  cases s <;> simp [isClaimable, isTerminal] at *

theorem not_isClaimable_of_isFailed (h : s.isFailed = true) : ¬s.isClaimable = true := by
  cases s <;> simp [isClaimable, isFailed] at *

end JobStatus

namespace RetryPolicy

variable {p : RetryPolicy} {r : Nat → JobResult} {n : Nat}

/-- Where a job stands after the run of the number has come to a result. -/
def statusAfter (p : RetryPolicy) (n : Nat) : JobResult → JobStatus
  | .success _ => .succeeded
  | .failure e => if p.allowsAnother n then .retrying e n else .failed e n
  | .fatal e => .failed e n

/-- Where a job stands after so many runs. -/
def statusAt (p : RetryPolicy) (r : Nat → JobResult) : Nat → JobStatus
  | 0 => .pending
  | n + 1 => p.statusAfter (n + 1) (r (n + 1))

/-- What the run of the number has to say. -/
def outputAt (r : Nat → JobResult) : Nat → Option Json.Value
  | 0 => none
  | n + 1 => (r (n + 1)).output?

/-- There is no other run after the one of the number: it does not fail, or it is the last one that
the policy allows, which always allows one. -/
def EndsAt (p : RetryPolicy) (r : Nat → JobResult) (n : Nat) : Prop :=
  1 ≤ n ∧ (n = max p.maxAttempts 1 ∨ (r n).isFailure = false)

theorem endsAt_max (p : RetryPolicy) (r : Nat → JobResult) : p.EndsAt r (max p.maxAttempts 1) :=
  ⟨Nat.le_max_right p.maxAttempts 1, Or.inl rfl⟩

/-- There is a last run. -/
theorem exists_isLeast_endsAt (p : RetryPolicy) (r : Nat → JobResult) :
    ∃ k, IsLeast {i | p.EndsAt r i} k := by
  classical
  have hlimit : ∃ i, p.EndsAt r i := ⟨max p.maxAttempts 1, p.endsAt_max r⟩
  exact ⟨Nat.find hlimit, Nat.find_spec hlimit, fun i hi => Nat.find_min' hlimit hi⟩

/-- A job that has been run as often as its policy allows at most waits for another run unless the
last one was the end. -/
theorem not_endsAt_iff (hn : n ≤ max p.maxAttempts 1) :
    ¬p.EndsAt r n ↔ (p.statusAt r n).isClaimable = true := by
  cases n with
  | zero => simp [EndsAt, statusAt, JobStatus.isClaimable]
  | succ n =>
    cases hresult : r (n + 1) with
    | success o => simp [EndsAt, statusAt, statusAfter, hresult, JobResult.isFailure,
        JobStatus.isClaimable]
    | fatal e => simp [EndsAt, statusAt, statusAfter, hresult, JobResult.isFailure,
        JobStatus.isClaimable]
    | failure e =>
      by_cases hmore : n + 1 < p.maxAttempts
      · have hne : n + 1 ≠ max p.maxAttempts 1 := by omega
        simp [EndsAt, statusAt, statusAfter, hresult, JobResult.isFailure, JobStatus.isClaimable,
          allowsAnother, hmore, hne]
      · have heq : n + 1 = max p.maxAttempts 1 := by omega
        simp [EndsAt, statusAt, statusAfter, hresult, JobStatus.isClaimable, allowsAnother, hmore,
          ← heq]

/-- A job that waits for another run has failed and may be tried again. -/
theorem exists_retrying (hn : 0 < n) (hclaimable : (p.statusAt r n).isClaimable = true) :
    ∃ e, r n = .failure e ∧ p.statusAt r n = .retrying e n := by
  obtain ⟨m, rfl⟩ := Nat.exists_eq_add_one.mpr hn
  cases hresult : r (m + 1) with
  | success o => simp [statusAt, statusAfter, hresult, JobStatus.isClaimable] at hclaimable
  | fatal e => simp [statusAt, statusAfter, hresult, JobStatus.isClaimable] at hclaimable
  | failure e =>
    refine ⟨e, rfl, ?_⟩
    by_cases hmore : p.allowsAnother (m + 1) = true
    · simp [statusAt, statusAfter, hresult, hmore]
    · simp [statusAt, statusAfter, hresult, hmore, JobStatus.isClaimable] at hclaimable

theorem statusAt_of_success {o : Option Json.Value} (hn : 0 < n) (ho : r n = .success o) :
    p.statusAt r n = .succeeded ∧ outputAt r n = o := by
  obtain ⟨m, rfl⟩ := Nat.exists_eq_add_one.mpr hn
  simp [statusAt, statusAfter, outputAt, ho, JobResult.output?]

/-- A job that does not wait for another run after an error has failed for good. -/
theorem statusAt_eq_failed {e : String} (hn : 0 < n)
    (hover : ¬(p.statusAt r n).isClaimable = true) (he : (r n).error? = some e) :
    p.statusAt r n = .failed e n := by
  obtain ⟨m, rfl⟩ := Nat.exists_eq_add_one.mpr hn
  cases hresult : r (m + 1) with
  | success o => simp [hresult, JobResult.error?] at he
  | fatal e' =>
    simp only [hresult, JobResult.error?, Option.some.injEq] at he
    simp [statusAt, statusAfter, hresult, he]
  | failure e' =>
    simp only [hresult, JobResult.error?, Option.some.injEq] at he
    by_cases hmore : p.allowsAnother (m + 1) = true
    · simp [statusAt, statusAfter, hresult, hmore, JobStatus.isClaimable] at hover
    · simp [statusAt, statusAfter, hresult, hmore, he]

/-- There is an output only after success. -/
theorem outputAt_eq_none (hne : p.statusAt r n ≠ .succeeded) : outputAt r n = none := by
  cases n with
  | zero => rfl
  | succ n =>
    cases hresult : r (n + 1) with
    | success o => simp [statusAt, statusAfter, hresult] at hne
    | failure e => simp [outputAt, hresult, JobResult.output?]
    | fatal e => simp [outputAt, hresult, JobResult.output?]

end RetryPolicy

namespace Job

variable {j k x y : Job} {r : Nat → JobResult} {result : JobResult} {n : Nat} {w w' : World}
  {started ended now : Instant}

/-! ## The end of a run -/

/-- What the end of a run makes of a job. -/
theorem finish_spec (h : j.finish started ended result = some k) :
    k.owner = j.owner ∧ k.policy = j.policy ∧ k.attempt = j.attempt ∧
      k.status = j.policy.statusAfter j.attempt result ∧
      (j.output = none → k.output = result.output?) ∧
      k.history = j.history ++ [j.run started ended result.error?] := by
  cases result with
  | success o =>
    cases h
    exact ⟨rfl, rfl, rfl, rfl, fun _ => rfl, rfl⟩
  | fatal e =>
    cases h
    exact ⟨rfl, rfl, rfl, rfl, fun hnone => hnone, rfl⟩
  | failure e =>
    simp only [finish, fail] at h
    split at h
    · rename_i hmore
      obtain ⟨t, -, rfl⟩ := Option.map_eq_some_iff.mp h
      exact ⟨rfl, rfl, rfl, (if_pos hmore).symm, fun hnone => hnone, rfl⟩
    · rename_i hmore
      cases h
      exact ⟨rfl, rfl, rfl, (if_neg hmore).symm, fun hnone => hnone, rfl⟩

/-- A run can end if the time of the next one lies within the calendar. -/
theorem exists_finish (started : Instant) (result : JobResult)
    (hfits : (timeAfter ended (j.policy.delayAfter j.attempt)).isSome = true) :
    ∃ k, j.finish started ended result = some k := by
  cases result with
  | success o => exact ⟨_, rfl⟩
  | fatal e => exact ⟨_, rfl⟩
  | failure e =>
    obtain ⟨t, ht⟩ := Option.isSome_iff_exists.mp hfits
    simp only [finish, fail, ht]
    split
    · exact ⟨_, rfl⟩
    · exact ⟨_, rfl⟩

/-! ## Careers -/

/-- A job is stored and then run so many times, with the results in their order; this is the job
that its last run leaves, and the world at a later time.  In between anything may happen that leaves
the job as it is. -/
inductive Career (j : Job) (r : Nat → JobResult) : Nat → Job → World → Prop
  | start {w : World} (hleft : World.Left j.id j w) : Career j r 0 j w
  | meanwhile {n : Nat} {x : Job} {w w' : World} (h : Career j r n x w)
      (hleft : World.Left j.id x w') :
    Career j r n x w'
  | run {n : Nat} {x k : Job} {w w' : World} {times : List Instant} (h : Career j r n x w)
      (hran : World.Ran j.id (r (n + 1)) times w k w') :
    Career j r (n + 1) k w'

/-- A job that is new, whatever its policy, or that has been put back after a career. -/
inductive Fresh : Job → Prop
  | new (id : JobId) (now : Instant) (owner : UserId) (payload : JobPayload)
      (policy : RetryPolicy) :
    Fresh { Job.new id now owner payload with policy := policy }
  | again {j k x : Job} {r : Nat → JobResult} {n : Nat} {w : World} {owner : UserId}
      {now : Instant} {t : JobStore} (hj : Fresh j) (h : Career j r n x w)
      (hretry : w.jobs.retryFailed owner j.id now = .ok (k, t)) :
    Fresh k

/-- The job has not been run yet, or not since it was put back. -/
structure Unrun (j : Job) : Prop where
  status : j.status = .pending
  attempt : j.attempt = 0
  output : j.output = none

/-- The history of the second job is that of the first one with so many runs more, which are
numbered in order; each has the error of its result. -/
def Adds (j : Job) (r : Nat → JobResult) (n : Nat) (x : Job) : Prop :=
  ∃ runs, x.history = j.history ++ runs ∧
    runs.map (fun u => (u.attempt, u.error)) =
      (List.range n).map fun i => (i + 1, (r (i + 1)).error?)

/-- What is so after any number of runs. -/
structure Going (j : Job) (r : Nat → JobResult) (n : Nat) (x : Job) (w : World) : Prop where
  left : World.Left j.id x w
  id : x.id = j.id
  owner : x.owner = j.owner
  policy : x.policy = j.policy
  attempt : x.attempt = n
  status : x.status = j.policy.statusAt r n
  output : x.output = RetryPolicy.outputAt r n
  history : j.Adds r n x
  /-- No run before the last one of these was the end. -/
  early : ∀ i, j.policy.EndsAt r i → n ≤ i

namespace Going

/-- What is stored under the identifier is the job. -/
theorem eq_of_find? (h : Going j r n x w) (hy : w.jobs.find? j.id = some y) : y = x := by
  rcases h.left.stored with hstored | ⟨hgone, -⟩
  · exact Option.some.inj (hy.symm.trans hstored)
  · rw [hgone] at hy
    cases hy

theorem output_eq_none (h : Going j r n x w) (hne : x.status ≠ .succeeded) : x.output = none := by
  rw [h.status] at hne
  exact h.output.trans (RetryPolicy.outputAt_eq_none hne)

/-- What is put back is the job, if it has failed for good. -/
theorem requeue {owner : UserId} {t : JobStore} (h : Going j r n x w)
    (hretry : w.jobs.retryFailed owner j.id now = .ok (y, t)) :
    x.status.isFailed = true ∧ y = x.requeue now ∧ World.Left y.id y { w with jobs := t } := by
  obtain ⟨hwrites, l, hl, hfailed, rfl⟩ := JobStore.writes_retryFailed h.left.distinct hretry
  have hsame := h.eq_of_find? hl
  subst hsame
  exact ⟨hfailed, rfl, hwrites.distinct, Or.inl (hwrites.find?_of_written rfl rfl)⟩

theorem not_endsAt_iff (h : Going j r n x w) :
    ¬j.policy.EndsAt r n ↔ x.status.isClaimable = true := by
  rw [h.status]
  exact RetryPolicy.not_endsAt_iff (h.early _ (j.policy.endsAt_max r))

/-- Another run keeps it so. -/
theorem run {times : List Instant} (h : Going j r n x w)
    (hran : World.Ran j.id (r (n + 1)) times w k w') : Going j r (n + 1) k w' := by
  obtain ⟨y, now, started, ended, hy, hdue, hfinish, hleft⟩ := hran.spec h.left.distinct
  have hsame := h.eq_of_find? hy
  subst hsame
  have hclaimable := isClaimable_of_isDue hdue
  obtain ⟨howner, hpolicy, hattempt, hstatus, houtput, hhistory⟩ := finish_spec hfinish
  have hcount : (y.claim now).attempt = n + 1 := congrArg (· + 1) h.attempt
  -- A run that does not succeed leaves the output as it is, so there must have been none before it.
  have hnone : y.output = none := by
    refine h.output_eq_none fun hsucceeded => ?_
    rw [hsucceeded] at hclaimable
    cases hclaimable
  have hstands : k.status = j.policy.statusAt r (n + 1) := by
    rw [hstatus, hcount]
    exact congrArg (fun p => RetryPolicy.statusAfter p (n + 1) (r (n + 1))) h.policy
  refine ⟨hleft, (id_of_finish hfinish).trans h.id, howner.trans h.owner, hpolicy.trans h.policy,
    hattempt.trans hcount, hstands, houtput hnone, ?_, fun i hi => ?_⟩
  · obtain ⟨runs, hruns, hmap⟩ := h.history
    refine ⟨runs ++ [(y.claim now).run started ended (r (n + 1)).error?], ?_, ?_⟩
    · rw [hhistory, ← List.append_assoc, ← hruns]
      rfl
    · rw [List.map_append, hmap, List.range_succ, List.map_append]
      simp only [List.map_singleton, Job.run, hcount]
  · -- The job was claimed, so the run before this one was not the end either.
    have hgoes := h.not_endsAt_iff.mpr hclaimable
    refine Nat.lt_of_le_of_ne (h.early i hi) fun hn => hgoes ?_
    rw [hn]
    exact hi

end Going

/-- It is so throughout a career. -/
theorem Career.going (h : Career j r n x w) (hj : Unrun j) : Going j r n x w := by
  induction h with
  | start hleft =>
    exact ⟨hleft, rfl, rfl, rfl, hj.attempt, hj.status, hj.output, ⟨[], by simp, rfl⟩,
      fun i _ => Nat.zero_le i⟩
  | meanwhile _ hleft ih =>
    exact ⟨hleft, ih.id, ih.owner, ih.policy, ih.attempt, ih.status, ih.output, ih.history,
      ih.early⟩
  | run _ hran ih => exact ih.run hran

/-- A fresh job has not been run. -/
theorem Fresh.unrun (h : Fresh j) : Unrun j := by
  induction h with
  | new => exact ⟨rfl, rfl, rfl⟩
  | @again j k x r n w owner now t _ h hretry ih =>
    have hgoing := h.going ih
    obtain ⟨hfailed, rfl, -⟩ := hgoing.requeue hretry
    refine ⟨rfl, rfl, hgoing.output_eq_none fun hsucceeded => ?_⟩
    rw [hsucceeded] at hfailed
    cases hfailed

/-! ## The course of a career -/

/-- Of the `k` runs of a job `n` are over, and this is what has become of it. -/
structure Course (j : Job) (r : Nat → JobResult) (k n : Nat) (x : Job) (w : World) : Prop where
  le : n ≤ k
  /-- The job is stored, unless it has come to its end and is gone. -/
  left : World.Left j.id x w
  attempt : x.attempt = n
  history : j.Adds r n x
  output : x.status ≠ .succeeded → x.output = none
  retrying : 0 < n → n < k → ∃ e, r n = .failure e ∧ x.status = .retrying e n
  succeeded : n = k → ∀ o, r k = .success o → x.status = .succeeded ∧ x.output = o
  failed : n = k → ∀ e, (r k).error? = some e → x.status = .failed e k
  /-- Before the last run, when its rest is over and it is the oldest job that is due, it is claimed
  and run again, unless the time of the run after that lies beyond the calendar. -/
  next : n < k → ∀ now started ended, x.isReady now = true →
    (∀ y ∈ w.jobs.jobs, y.isDue now = true → y.id = j.id ∨ x.isBefore y = true) →
    (timeAfter ended (j.policy.delayAfter (n + 1))).isSome = true →
      ∃ x' w', World.Ran j.id (r (n + 1)) [now, started, ended] w x' w'
  /-- After the last run it is never claimed. -/
  ended : n = k → ∀ now y, (w.jobs.claimNext now).1 = some y → y.id ≠ j.id
  /-- Its owner may put it back when it has failed for good and is stored. -/
  mayStartAgain : n = k → (r k).error?.isSome = true → w.jobs.find? j.id = some x →
    ∀ now, ∃ y t, w.jobs.retryFailed j.owner j.id now = .ok (y, t)
  /-- At no other time is it put back, and when it is, a new career begins with this one in its
  history. -/
  startsAgain : ∀ owner now y t, w.jobs.retryFailed owner j.id now = .ok (y, t) →
    n = k ∧ (r k).error?.isSome = true ∧ y.Fresh ∧ y.id = j.id ∧ y.policy = j.policy ∧
      y.history = x.history ∧ ∀ r', y.Career r' 0 y { w with jobs := t }

namespace Going

/-- Before its end a job that has been run waits for another run after a failure. -/
theorem retrying (h : Going j r n x w) (hmore : ¬j.policy.EndsAt r n) (hn : 0 < n) :
    ∃ e, r n = .failure e ∧ x.status = .retrying e n := by
  have hclaimable := h.not_endsAt_iff.mp hmore
  rw [h.status] at hclaimable ⊢
  exact RetryPolicy.exists_retrying hn hclaimable

theorem succeeded {o : Option Json.Value} (h : Going j r n x w) (hn : 0 < n)
    (ho : r n = .success o) : x.status = .succeeded ∧ x.output = o := by
  rw [h.status, h.output]
  exact RetryPolicy.statusAt_of_success hn ho

theorem failed {e : String} (h : Going j r n x w) (hend : j.policy.EndsAt r n)
    (he : (r n).error? = some e) : x.status = .failed e n := by
  have hover : ¬x.status.isClaimable = true := fun hclaimable =>
    h.not_endsAt_iff.mpr hclaimable hend
  rw [h.status] at hover ⊢
  exact RetryPolicy.statusAt_eq_failed hend.1 hover he

/-- A job that has failed for good is at its end, which was not a success. -/
theorem endsAt_of_isFailed (h : Going j r n x w) (hfailed : x.status.isFailed = true) :
    j.policy.EndsAt r n ∧ (r n).error?.isSome = true := by
  have hend : j.policy.EndsAt r n := by
    by_contra hmore
    exact JobStatus.not_isClaimable_of_isFailed hfailed (h.not_endsAt_iff.mp hmore)
  refine ⟨hend, ?_⟩
  cases hresult : r n with
  | success o =>
    rw [(h.succeeded hend.1 hresult).1] at hfailed
    cases hfailed
  | failure e => rfl
  | fatal e => rfl

/-- A job that is not at its end and is due is run. -/
theorem exists_ran (h : Going j r n x w) (hmore : ¬j.policy.EndsAt r n)
    (hready : x.isReady now = true)
    (hfirst : ∀ y ∈ w.jobs.jobs, y.isDue now = true → y.id = j.id ∨ x.isBefore y = true)
    (hfits : (timeAfter ended (j.policy.delayAfter (n + 1))).isSome = true) :
    ∃ x' w', World.Ran j.id (r (n + 1)) [now, started, ended] w x' w' := by
  have hclaimable := h.not_endsAt_iff.mp hmore
  have hstored : w.jobs.find? j.id = some x := by
    rcases h.left.stored with hstored | ⟨-, hterminal⟩
    · exact hstored
    · exact absurd hterminal (JobStatus.not_isTerminal_of_isClaimable hclaimable)
  have hrest : (timeAfter ended ((x.claim now).policy.delayAfter (x.claim now).attempt)).isSome =
      true := by
    have hpolicy : (x.claim now).policy = j.policy := h.policy
    have hcount : (x.claim now).attempt = n + 1 := congrArg (· + 1) h.attempt
    rw [hpolicy, hcount]
    exact hfits
  obtain ⟨k, hfinish⟩ := exists_finish started (r (n + 1)) hrest
  have hdue : x.isDue now = true := Bool.and_eq_true_iff.mpr ⟨hclaimable, hready⟩
  obtain ⟨w', hran⟩ := World.exists_ran h.left.distinct hstored hdue hfirst hfinish
  exact ⟨k, w', hran⟩

/-- A job that is at its end is not claimed. -/
theorem not_claimed (h : Going j r n x w) (hend : j.policy.EndsAt r n)
    (hy : (w.jobs.claimNext now).1 = some y) : y.id ≠ j.id := by
  obtain ⟨l, hl, hdue, rfl⟩ := (JobStore.writes_claimNext h.left.distinct now).2 y hy
  intro hid
  have hfind : w.jobs.find? j.id = some l := by
    rw [← hid]
    exact hl
  have hsame := h.eq_of_find? hfind
  subst hsame
  have hclaimable := isClaimable_of_isDue hdue
  exact h.not_endsAt_iff.mpr hclaimable hend

end Going

/-- However its runs end, a fresh job is run until the first of them that does not fail, or as often
as its policy allows, and no more. -/
theorem Fresh.course (h : Fresh j) (r : Nat → JobResult) :
    ∃ k, IsLeast {i | j.policy.EndsAt r i} k ∧
      ∀ n x w, Career j r n x w → Course j r k n x w := by
  obtain ⟨k, hk⟩ := j.policy.exists_isLeast_endsAt r
  refine ⟨k, hk, fun n x w hcareer => ?_⟩
  have hgoing := hcareer.going h.unrun
  have hmore (hn : n < k) : ¬j.policy.EndsAt r n := fun hend => absurd (hk.2 hend) (by omega)
  have hend (hn : n = k) : j.policy.EndsAt r n := hn ▸ hk.1
  refine ⟨hgoing.early k hk.1, hgoing.left, hgoing.attempt, hgoing.history, hgoing.output_eq_none,
    fun hpos hn => hgoing.retrying (hmore hn) hpos, fun hn o ho => ?_, fun hn e he => ?_,
    fun hn now started ended => hgoing.exists_ran (hmore hn),
    fun hn now y => hgoing.not_claimed (hend hn), fun hn he hstored now => ?_,
    fun owner now y t hretry => ?_⟩
  · subst hn
    exact hgoing.succeeded hk.1.1 ho
  · subst hn
    exact hgoing.failed hk.1 he
  · subst hn
    obtain ⟨e, he⟩ := Option.isSome_iff_exists.mp he
    have hfailed : x.status.isFailed = true := by
      rw [hgoing.failed hk.1 he]
      rfl
    rw [← hgoing.owner]
    exact JobStore.exists_retryFailed hstored hfailed now
  · obtain ⟨hfailed, rfl, hleft⟩ := hgoing.requeue hretry
    obtain ⟨hend, he⟩ := hgoing.endsAt_of_isFailed hfailed
    have hn : n = k := Nat.le_antisymm (hgoing.early k hk.1) (hk.2 hend)
    exact ⟨hn, hn ▸ he, .again h hcareer hretry, hgoing.id, hgoing.policy, rfl,
      fun r' => .start hleft⟩

/-- A job that may be run three times, and what its runs come to: the first one takes too long, the
second one succeeds. -/
def slow : Job :=
  { Job.new (.ofNat 1) ⟨0, 0⟩ ⟨1⟩ (.notifyOrderPlaced ⟨1⟩ ⟨1⟩) with
    policy := .fixed 3 (.ofSeconds 1) }
where
  results : Nat → JobResult
  | 1 => .timedOut (.ofSeconds 60)
  | _ => .success none

/-- It is run once and then waits for the second run, which is the last. -/
theorem Fresh.course_of_slow : ∃ x w, Career slow slow.results 1 x w ∧
    Course slow slow.results 2 1 x w := by
  have hfresh : Fresh slow := .new (.ofNat 1) ⟨0, 0⟩ ⟨1⟩ (.notifyOrderPlaced ⟨1⟩ ⟨1⟩)
    (.fixed 3 (.ofSeconds 1))
  obtain ⟨k, hk, hcourse⟩ := hfresh.course slow.results
  have hlast : k = 2 := by
    have hle : k ≤ 2 := hk.2 ⟨by decide, Or.inr rfl⟩
    have hne : k ≠ 1 := by
      rintro rfl
      rcases hk.1.2 with hlimit | hresult
      · cases hlimit
      · cases hresult
    have hpos := hk.1.1
    omega
  subst hlast
  have hstart : Career slow slow.results 0 slow
      { World.start ⟨0, 0⟩ 3 with jobs := ⟨[slow], 3⟩ } :=
    .start ⟨List.nodup_singleton _, Or.inl rfl⟩
  have hsole : ∀ y ∈ [slow], y.isDue ⟨0, 0⟩ = true → y.id = slow.id ∨ slow.isBefore y = true :=
    fun y hy _ => Or.inl (congrArg Job.id (List.mem_singleton.mp hy))
  obtain ⟨x, w, hran⟩ := (hcourse 0 slow _ hstart).next (by decide) ⟨0, 0⟩ ⟨0, 0⟩ ⟨60, 0⟩ rfl hsole
    (by decide +kernel)
  have hrun := hstart.run hran
  exact ⟨x, w, hrun, hcourse 1 x w hrun⟩

end Job

end Marketplace
