import Mathlib.Data.Prod.Lex
import Marketplace.Proofs.Job.Writes
set_option autoImplicit false

/-!
# Jobs in order

Jobs are claimed in the order in which they were made, and finished jobs go in the order in which
they were changed last; identifiers decide between jobs of one time.  Both are linear orders, in
which no two jobs of a store have one place.
-/

namespace Marketplace

/-- The place of an identifier at a time: earlier times come first, and at one time smaller
identifiers. -/
def JobId.placeAt (i : JobId) (t : Instant) : ℤ ×ₗ ℕ ×ₗ ℕ :=
  toLex (t.seconds, toLex (t.nanos, i.toNat))

theorem JobId.placeAt_lt_iff {i k : JobId} {t u : Instant} : i.placeAt t < k.placeAt u ↔
    t.seconds < u.seconds ∨ (t.seconds = u.seconds ∧
      (t.nanos < u.nanos ∨ (t.nanos = u.nanos ∧ i.toNat < k.toNat))) := by
  simp only [placeAt, Prod.Lex.toLex_lt_toLex]

theorem JobId.eq_of_placeAt_eq {i k : JobId} {t u : Instant} (h : i.placeAt t = k.placeAt u) :
    i = k := by
  have hparts := congrArg (fun p => (ofLex (ofLex p).2).2) h
  have hvalue : i.value = k.value := BitVec.eq_of_toNat_eq hparts
  cases i
  cases k
  exact congrArg JobId.mk hvalue

namespace Job

variable {j k : Job}

/-- The place in the order in which jobs were made. -/
def made (j : Job) : ℤ ×ₗ ℕ ×ₗ ℕ := j.id.placeAt j.createdAt

/-- The place in the order in which jobs were changed last. -/
def changed (j : Job) : ℤ ×ₗ ℕ ×ₗ ℕ := j.id.placeAt j.updatedAt

theorem isBefore_iff_made_lt : j.isBefore k = true ↔ j.made < k.made := by
  rw [isBefore_iff, made, made, JobId.placeAt_lt_iff]

end Job

theorem JobStore.isStaler_iff {j k : Job} : isStaler j k = true ↔ j.changed ≤ k.changed := by
  have heq : j.updatedAt = k.updatedAt ↔
      j.updatedAt.seconds = k.updatedAt.seconds ∧ j.updatedAt.nanos = k.updatedAt.nanos := by
    rw [Instant.mk.injEq]
  rw [← not_lt, Job.changed, Job.changed, JobId.placeAt_lt_iff]
  simp only [isStaler, Instant.lt, Instant.le, Bool.or_eq_true, Bool.and_eq_true, Bool.not_eq_true',
    Bool.or_eq_false_iff, Bool.and_eq_false_imp, decide_eq_false_iff_not, decide_eq_true_eq,
    beq_iff_eq, heq]
  omega

end Marketplace
