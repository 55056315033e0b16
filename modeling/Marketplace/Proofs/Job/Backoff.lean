import Mathlib.Algebra.Group.Nat.Defs
import Mathlib.Order.Monotone.Defs
import Mathlib.Order.Nat
import Marketplace.Job.Retry
set_option autoImplicit false

/-!
# Rests between runs

How long a job rests after a run is a matter of plain numbers: so many base lengths as its policy's
kind of growth says, or the policy's limit if that is less (`RetryPolicy.delayAfter_exact`).  That
the factor stops growing where 32 bits end, that lengths are multiplied in seconds and nanoseconds,
and that there is a greatest length does not show in it.

The arithmetic of lengths saturates, so every lemma on the way says what a length comes to in
nanoseconds, capped where lengths end; the caps meet in the end, and the smallest of them is the
policy's own.
-/

namespace Marketplace

namespace Span

variable {n : Nat}

/-- No length is greater than the greatest one. -/
theorem nanos_le_maxNanos (s : Span) : s.nanos ≤ maxNanos := Nat.le_pred_of_lt s.nanos_lt

/-- A product is exact as long as it is a length. -/
theorem nanos_times (s : Span) (n : Nat) :
    (s.times n).nanos = Min.min (s.nanos * n) maxNanos := by
  have hparts : s.seconds * n * nanosPerSecond + s.subNanos * n = s.nanos * n := by
    calc s.seconds * n * nanosPerSecond + s.subNanos * n
        = (s.seconds * nanosPerSecond + s.subNanos) * n := by
          rw [Nat.add_mul, Nat.mul_right_comm]
      _ = s.nanos * n := by
          rw [seconds, subNanos, Nat.div_add_mod']
  have hbound : maxNanos + 1 = spanBound := rfl
  unfold times ofParts?
  simp only [hparts]
  split
  · rename_i hfits
    rw [Option.getD_some, Nat.min_eq_left (by omega)]
  · rename_i hfits
    rw [Option.getD_none, Nat.min_eq_right (by omega)]
    exact Nat.min_self maxNanos

/-- The lesser of two lengths is the one of fewer nanoseconds. -/
theorem nanos_min (s t : Span) : (s.min t).nanos = Min.min s.nanos t.nanos := by
  unfold Span.min
  split
  · rename_i hle
    exact (Nat.min_eq_left hle).symm
  · rename_i hle
    exact (Nat.min_eq_right (Nat.le_of_not_le hle)).symm

end Span

namespace Backoff

/-- How many base lengths the rest after the run of the number is worth. -/
def multiple (b : Backoff) (n : Nat) : Nat :=
  match b with
  | .fixed => 1
  | .linear => n
  | .exponential => min (2 ^ (n - 1)) (2 ^ 32 - 1)

/-- A power of two that has more than 32 bits counts as the greatest number that has not. -/
theorem factor_eq_multiple (b : Backoff) (n : Nat) : b.factor n = b.multiple n := by
  cases b with
  | fixed => rfl
  | linear => rfl
  | exponential =>
    have hfactor : factor .exponential n =
        if n - 1 < 32 then 2 ^ (n - 1) else 2 ^ 32 - 1 := rfl
    rw [hfactor, multiple]
    split
    · rename_i hlt
      have hpow : 2 ^ (n - 1) < 2 ^ 32 := Nat.pow_lt_pow_right (by decide) hlt
      omega
    · rename_i hlt
      have hpow : 2 ^ 32 ≤ 2 ^ (n - 1) := Nat.pow_le_pow_right (by decide) (by omega)
      omega

/-- Later rests are no shorter than earlier ones. -/
theorem monotone_multiple (b : Backoff) : Monotone b.multiple := by
  intro m n hle
  cases b with
  | fixed => exact Nat.le_refl 1
  | linear => exact hle
  | exponential =>
    have hpow : 2 ^ (m - 1) ≤ 2 ^ (n - 1) := Nat.pow_le_pow_right (by decide) (by omega)
    simp only [multiple]
    omega

end Backoff

namespace RetryPolicy

variable {n : Nat}

/-- In nanoseconds the rest is what the policy's numbers come to, with the limit of lengths taken in
by the policy's own limit. -/
theorem nanos_delayAfter (p : RetryPolicy) (hn : 0 < n) :
    (p.delayAfter n).nanos =
      min p.maxDelay.nanos (p.baseDelay.nanos * p.backoff.multiple n) := by
  have hlimit := p.maxDelay.nanos_le_maxNanos
  rw [delayAfter, if_neg (by omega), Span.nanos_min, Span.nanos_times, Backoff.factor_eq_multiple]
  omega

/-- The rest after a run is the base length times the factor of the run, to the nanosecond, or the
limit if that is less; a later run is never followed by a shorter rest. -/
theorem delayAfter_exact (p : RetryPolicy) :
    (p.delayAfter 0).nanos = 0 ∧
      (∀ n, (p.delayAfter (n + 1)).nanos =
        min p.maxDelay.nanos (p.baseDelay.nanos * p.backoff.multiple (n + 1))) ∧
      (Monotone fun n => (p.delayAfter n).nanos) ∧
      ∀ n, (p.delayAfter n).nanos ≤ p.maxDelay.nanos := by
  have hzero : (p.delayAfter 0).nanos = 0 := rfl
  have hrest (n : Nat) := p.nanos_delayAfter (Nat.succ_pos n)
  refine ⟨hzero, hrest, ?_, ?_⟩
  · intro m n hle
    rcases Nat.eq_zero_or_pos m with rfl | hm
    · exact Nat.zero_le _
    · have hgrows : p.baseDelay.nanos * p.backoff.multiple m ≤
          p.baseDelay.nanos * p.backoff.multiple n :=
        Nat.mul_le_mul_left _ (p.backoff.monotone_multiple hle)
      show (p.delayAfter m).nanos ≤ (p.delayAfter n).nanos
      rw [p.nanos_delayAfter hm, p.nanos_delayAfter (Nat.lt_of_lt_of_le hm hle)]
      omega
  · intro n
    cases n with
    | zero => exact Nat.zero_le _
    | succ n => exact (hrest n).trans_le (Nat.min_le_left _ _)

end RetryPolicy

end Marketplace
