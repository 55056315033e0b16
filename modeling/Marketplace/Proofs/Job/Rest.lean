import Marketplace.Proofs.Job.Writes
set_option autoImplicit false

/-!
# Jobs that rest

A job that waits for another run after a failure is not claimed before its rest is over, if the rest
ends within the calendar; and no other job rests as it should (`Job.rests_iff`).  A rest that is
longer than the schedule can express is left out, and one that ends beyond the calendar ends the
program (`Job.exists_rest_broken`).
-/

namespace Marketplace

namespace Instant

variable {t u v : Instant} {n : Nat}

/-- The first instant beyond the calendar. -/
def beyond : Instant := ⟨maxSeconds + 1, 0⟩

/-- A clock can read the instant: it lies in the calendar and is no leap second. -/
structure IsReading (t : Instant) : Prop where
  minSeconds_le : minSeconds ≤ t.seconds
  le_maxSeconds : t.seconds ≤ maxSeconds
  nanos_lt : t.nanos < nanosPerSecond

theorem le_iff : t.le u = true ↔
    t.seconds < u.seconds ∨ (t.seconds = u.seconds ∧ t.nanos ≤ u.nanos) := by
  simp [le]

/-- An instant within the calendar lies so many nanoseconds later, or none does. -/
theorem plusNanos?_cases (t : Instant) (n : Nat) :
    ((n : Int) < t.nanosBetween beyond ∧
        ∃ u, t.plusNanos? n = some u ∧ t.nanosBetween u = n ∧ u.nanos < nanosPerSecond) ∨
      (t.nanosBetween beyond ≤ n ∧ t.plusNanos? n = none) := by
  have hsecond : nanosPerSecond = 1000000000 := rfl
  simp only [plusNanos?, nanosBetween, beyond, hsecond]
  split
  · refine Or.inl ⟨by omega, _, rfl, ?_, Nat.mod_lt _ (by decide)⟩
    simp only []
    omega
  · exact Or.inr ⟨by omega, rfl⟩

/-- What is not before a later instant is as much later. -/
theorem nanosBetween_le_of_le (hu : u.nanos < nanosPerSecond) (h : u.le v = true) :
    t.nanosBetween u ≤ t.nanosBetween v := by
  have hsecond : nanosPerSecond = 1000000000 := rfl
  rw [le_iff] at h
  simp only [nanosBetween, hsecond] at hu ⊢
  omega

/-- The calendar is shorter than the longest rest. -/
theorem IsReading.nanosBetween_beyond_le (ht : t.IsReading) :
    t.nanosBetween beyond ≤ Job.maxRest := by
  have hcalendar : (maxSeconds + 1 - minSeconds) * 1000000000 ≤ Job.maxRest := by decide +kernel
  have hsecond : nanosPerSecond = 1000000000 := rfl
  have hmin := ht.minSeconds_le
  simp only [nanosBetween, beyond, hsecond]
  omega

end Instant

namespace Job

variable {j k : Job} {started ended now : Instant} {error : String}

/-- The job waits for another run, which is scheduled for the end of a rest and which it is not
claimed for before. -/
structure Rests (k : Job) (rest : Span) : Prop where
  retrying : ∃ error attempt, k.status = .retrying error attempt
  scheduled : ∃ t, k.scheduledAt = some t ∧ (rest.nanos : Int) ≤ k.updatedAt.nanosBetween t
  unclaimed : ∀ (s : JobStore) (now : Instant) (x : Job), s.Distinct → s.find? k.id = some k →
    (s.claimNext now).1 = some x → x.id = k.id → (rest.nanos : Int) ≤ k.updatedAt.nanosBetween now

theorem le_of_isReady {t : Instant} (hk : k.scheduledAt = some t) (hready : k.isReady now = true) :
    t.le now = true := by
  rw [isReady, hk] at hready
  exact hready

/-- A stored job is claimed at the time that it is scheduled for or later. -/
theorem le_of_claimNext {s : JobStore} {t : Instant} {x : Job} (hs : s.Distinct)
    (hstored : s.find? k.id = some k) (hk : k.scheduledAt = some t)
    (hx : (s.claimNext now).1 = some x) (hid : x.id = k.id) : t.le now = true := by
  obtain ⟨y, hy, hdue, rfl⟩ := (JobStore.writes_claimNext hs now).2 x hx
  have hyid : y.id = k.id := hid
  rw [hyid] at hy
  have hsame : y = k := Option.some.inj (hy.symm.trans hstored)
  rw [hsame] at hdue
  exact le_of_isReady hk (Bool.and_eq_true_iff.mp hdue).2

theorem Rests.of_scheduledAt {t : Instant} {rest : Span}
    (hstatus : ∃ error attempt, k.status = .retrying error attempt) (ht : k.scheduledAt = some t)
    (hnormal : t.nanos < Instant.nanosPerSecond)
    (hrest : (rest.nanos : Int) ≤ k.updatedAt.nanosBetween t) : k.Rests rest := by
  refine ⟨hstatus, ⟨t, ht, hrest⟩, ?_⟩
  intro s now x hs hstored hx hid
  have hle := le_of_claimNext hs hstored ht hx hid
  exact Int.le_trans hrest (Instant.nanosBetween_le_of_le hnormal hle)

theorem timeAfter_of_le {rest : Span} (h : rest.nanos ≤ maxRest) :
    timeAfter now rest = now.plusNanos? rest.nanos := by
  rw [timeAfter, if_pos h]

/-- After a rest that the schedule cannot express the next run is due at once. -/
theorem timeAfter_of_lt {rest : Span} (h : maxRest < rest.nanos) :
    timeAfter now rest = now.plusNanos? 0 := by
  rw [timeAfter, if_neg (Nat.not_le.mpr h)]

/-- The time of the run after a rest is the end of the rest if that lies within the calendar, and
otherwise there is no such time or it is that of the failure. -/
theorem timeAfter_cases (hnow : now.IsReading) (rest : Span) :
    ((rest.nanos : Int) < now.nanosBetween .beyond ∧ ∃ t, timeAfter now rest = some t ∧
        now.nanosBetween t = rest.nanos ∧ t.nanos < Instant.nanosPerSecond) ∨
      (now.nanosBetween .beyond ≤ rest.nanos ∧
        ∀ t, timeAfter now rest = some t → now.nanosBetween t < rest.nanos) := by
  have hcalendar := hnow.nanosBetween_beyond_le
  rcases Nat.lt_or_ge maxRest rest.nanos with hlong | hshort
  · refine Or.inr ⟨by omega, ?_⟩
    intro t ht
    rw [timeAfter_of_lt hlong] at ht
    rcases Instant.plusNanos?_cases now 0 with ⟨-, u, hu, hbetween, -⟩ | ⟨-, hnone⟩
    · have hsame : t = u := Option.some.inj (ht.symm.trans hu)
      rw [hsame, hbetween]
      omega
    · rw [hnone] at ht
      cases ht
  · rw [timeAfter_of_le hshort]
    rcases Instant.plusNanos?_cases now rest.nanos with ⟨hfits, hlater⟩ | ⟨hbeyond, hnone⟩
    · exact Or.inl ⟨hfits, hlater⟩
    · refine Or.inr ⟨hbeyond, ?_⟩
      intro t ht
      rw [hnone] at ht
      cases ht

/-- A job that has failed and may be run again rests as long as its policy says if the end of the
rest lies within the calendar, and only then. -/
theorem rests_iff (hmore : j.policy.allowsAnother j.attempt = true) (hended : ended.IsReading)
    (started : Instant) (error : String) :
    (∃ k, j.fail started ended error = some k ∧ k.updatedAt = ended ∧
        k.Rests (j.policy.delayAfter j.attempt)) ↔
      ((j.policy.delayAfter j.attempt).nanos : Int) < ended.nanosBetween .beyond := by
  simp only [fail, hmore, if_true]
  rcases timeAfter_cases hended (j.policy.delayAfter j.attempt) with
    ⟨hfits, t, ht, hbetween, hnormal⟩ | ⟨hbeyond, hearly⟩
  · refine ⟨fun _ => hfits, fun _ => ?_⟩
    refine ⟨_, Option.map_eq_some_iff.mpr ⟨t, ht, rfl⟩, rfl, ?_⟩
    exact .of_scheduledAt ⟨_, _, rfl⟩ rfl hnormal (Int.le_of_eq hbetween.symm)
  · refine ⟨?_, fun hfits => absurd hfits (Int.not_lt.mpr hbeyond)⟩
    intro h
    obtain ⟨k, hk, -, hrests⟩ := h
    obtain ⟨t, ht, rfl⟩ := Option.map_eq_some_iff.mp hk
    obtain ⟨u, hu, hlate⟩ := hrests.scheduled
    have hsame : t = u := Option.some.inj hu
    subst hsame
    exact absurd hlate (Int.not_le.mpr (hearly t ht))

/-- A claimed job that rests for one length after each of its runs. -/
def resting (rest : Span) : Job :=
  { Job.new (.ofNat 1) ⟨0, 0⟩ ⟨1⟩ (.notifyOrderPlaced ⟨1⟩ ⟨1⟩) with
    policy := .fixed 5 rest }.claim ⟨0, 0⟩

/-- After a run of a minute it rests for an hour, if that is what its policy says. -/
theorem rests_iff_of_hour :
    (resting (.ofSeconds 3600)).policy.allowsAnother (resting (.ofSeconds 3600)).attempt = true ∧
      Instant.IsReading ⟨60, 0⟩ ∧
      ∃ k, (resting (.ofSeconds 3600)).fail ⟨0, 0⟩ ⟨60, 0⟩ "busy" = some k ∧
        k.updatedAt = ⟨60, 0⟩ ∧ k.Rests (.ofSeconds 3600) := by
  have hreading : Instant.IsReading ⟨60, 0⟩ :=
    ⟨by decide +kernel, by decide +kernel, by decide⟩
  have hmore : (resting (.ofSeconds 3600)).policy.allowsAnother
      (resting (.ofSeconds 3600)).attempt = true := rfl
  have hrest : (resting (.ofSeconds 3600)).policy.delayAfter (resting (.ofSeconds 3600)).attempt =
      .ofSeconds 3600 := by decide +kernel
  have hiff := rests_iff hmore hreading ⟨0, 0⟩ "busy"
  rw [hrest] at hiff
  exact ⟨hmore, hreading, hiff.mpr (by decide +kernel)⟩

/-- A job that is to rest for three hundred million years is claimed again at once, and one that is
to rest for three hundred thousand years cannot be put down as failed. -/
theorem exists_rest_broken :
    (∃ k, (resting (.ofSeconds 10000000000000000)).fail ⟨0, 0⟩ ⟨0, 0⟩ "busy" = some k ∧
        k.status = .retrying "busy" 1 ∧
        ((JobStore.mk [k] 3).claimNext ⟨0, 0⟩).1 = some (k.claim ⟨0, 0⟩)) ∧
      (resting (.ofSeconds 10000000000000)).fail ⟨0, 0⟩ ⟨0, 0⟩ "busy" = none := by
  refine ⟨?_, rfl⟩
  obtain ⟨k, hk⟩ : ∃ k, (resting (.ofSeconds 10000000000000000)).fail ⟨0, 0⟩ ⟨0, 0⟩ "busy" =
      some k := ⟨_, rfl⟩
  have hstatus : k.status = .retrying "busy" 1 := by
    cases hk
    rfl
  have hdue : k.isDue ⟨0, 0⟩ = true := by
    cases hk
    decide +kernel
  refine ⟨k, hk, hstatus, ?_⟩
  simp only [JobStore.claimNext, List.filter_cons, hdue, if_true, List.filter_nil, JobStore.oldest?]

end Job

end Marketplace
