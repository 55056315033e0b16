import Mathlib.Data.List.Count
import Marketplace.Proofs.Program.Frame
set_option autoImplicit false

/-!
# Who holds the locks of buyers

Whatever programs run, a buyer's lock is held once at most, and by the one activity that has taken
it and not given it back.

The world keeps one list of locks that are held, and each activity a list of its own.  That the two
agree is not a matter of course: an activity may be dropped while it holds locks, and only the world
answers calls.  So the number of times that a lock is held is compared on both sides, step by step.
-/

namespace Marketplace

namespace Activity

variable {w w' : World} {a a' : Activity}

/-- The world counts a lock as often as activities hold it; nobody gets one that is held.  The
change is stated as a sum, so that it can be added to what all other activities hold. -/
theorem Step.locked (h : a.Step w w' a') (buyer : UserId)
    (hheld : a.locks.count buyer ≤ w.locked.count buyer) :
    w'.locked.count buyer + a.locks.count buyer = w.locked.count buyer + a'.locks.count buyer ∧
      (w.locked.count buyer ≤ 1 → w'.locked.count buyer ≤ 1) := by
  cases h with
  | @call c next r w' m hprogram hwhole hallows hact =>
    by_cases hlock : ∃ user, c = .lock user
    · obtain ⟨user, rfl⟩ := hlock
      simp only [World.act, World.handle] at hact
      split at hact
      · cases hact
      · rename_i hfree
        cases hact
        have hcount : w.locked.count user = 0 := by
          simpa [List.count_eq_zero] using hfree
        simp only [after, locksAfter, List.count_cons]
        split
        · rename_i huser
          rw [beq_iff_eq] at huser
          subst huser
          omega
        · omega
    · by_cases hunlock : ∃ user, c = .unlock user
      · obtain ⟨user, rfl⟩ := hunlock
        cases hact
        have hmine : user ∈ a.locks := by
          simpa [allows] using hallows
        have hpositive : 0 < a.locks.count user := List.count_pos_iff.mpr hmine
        simp only [after, locksAfter, List.count_erase]
        split
        · rename_i huser
          rw [beq_iff_eq] at huser
          subst huser
          omega
        · omega
      · have hsame := (World.frame_of_act hact).locked (fun user hc => hlock ⟨user, hc⟩)
          fun user hc => hunlock ⟨user, hc⟩
        have hlocks : a.locksAfter c = a.locks := by
          cases c with
          | lock user => exact absurd ⟨user, rfl⟩ hlock
          | unlock user => exact absurd ⟨user, rfl⟩ hunlock
          | _ => rfl
        simp only [after, hlocks, hsame]
        exact ⟨trivial, id⟩
  | @finish m _ =>
    cases m <;> exact ⟨rfl, id⟩
  | drop _ =>
    have hcount : (a.locks.foldl List.erase w.locked).count buyer =
        w.locked.count buyer - a.locks.count buyer := by
      rw [← List.diff_eq_foldl, List.count_diff]
    simp only [release, ended, start, hcount, List.count_nil]
    omega

end Activity

namespace Pool

variable {admitted : Program Unit → Prop} {P : Pool}

/-- The locks that activities hold, with a lock as often as it is held. -/
def held (P : Pool) : List UserId := P.activities.flatMap Activity.locks

theorem held_append (w : World) (as bs : List Activity) (a : Activity) :
    held ⟨w, as ++ a :: bs⟩ =
      as.flatMap Activity.locks ++ (a.locks ++ bs.flatMap Activity.locks) := by
  simp only [held, List.flatMap_append, List.flatMap_cons]

/-- Every lock is held as often as the world says, and once at most. -/
theorem Reachable.count_held (h : P.Reachable admitted) (buyer : UserId) :
    P.held.count buyer = P.world.locked.count buyer ∧ P.world.locked.count buyer ≤ 1 := by
  induction h with
  | start clock retention => exact ⟨rfl, Nat.zero_le 1⟩
  | step _ hst ih =>
    cases hst with
    | start hp => simpa [held, Activity.start] using ih
    | environment clock files => exact ih
    | @move w w' a a' as bs ha =>
      rw [held_append] at ih ⊢
      simp only [List.count_append] at ih ⊢
      obtain ⟨hcount, hone⟩ := ha.locked buyer (by omega)
      exact ⟨by omega, hone ih.2⟩

/-- Of two activities one at most holds the lock of a buyer. -/
theorem Reachable.lock_exclusive {w : World} {as bs : List Activity} {a x : Activity}
    (h : Reachable admitted ⟨w, as ++ a :: bs⟩) (hx : x ∈ as ∨ x ∈ bs) {buyer : UserId}
    (ha : buyer ∈ a.locks) : buyer ∉ x.locks := by
  intro hheld
  have hcount := h.count_held buyer
  rw [held_append] at hcount
  simp only [List.count_append] at hcount
  have hmine : 0 < a.locks.count buyer := List.count_pos_iff.mpr ha
  have htheirs : ∀ l : List Activity, x ∈ l → 0 < (l.flatMap Activity.locks).count buyer :=
    fun l hl => List.count_pos_iff.mpr (List.mem_flatMap.mpr ⟨x, hl, hheld⟩)
  rcases hx with hx | hx
  · have hpositive := htheirs as hx
    omega
  · have hpositive := htheirs bs hx
    omega

end Pool

end Marketplace
