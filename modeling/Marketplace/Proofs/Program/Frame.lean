import Marketplace.Proofs.Program.Pool
set_option autoImplicit false

/-!
# What calls leave alone

The world has parts that are changed by calls of their own: the store, the jobs, the mail, the locks
and the count of identifiers.  `World.Frame` says for each part which calls may change it, so that a
result on one part need not look at the calls of the others.
-/

namespace Marketplace.World

/-- Only calls for locks change the locks, only new job identifiers are counted, and only calls for
jobs change the jobs. -/
structure Frame (w : World) (c : Call) (w' : World) : Prop where
  locked : (∀ buyer, c ≠ .lock buyer) → (∀ buyer, c ≠ .unlock buyer) → w'.locked = w.locked
  issued : c ≠ .newJobId → w'.issued = w.issued
  jobs : (∀ d, c ≠ .job d) → w'.jobs = w.jobs

variable {w w' : World} {c : Call} {r : c.Reply} {m : Option Remainder}

/-- A call to the storage changes nothing but the store, whatever it does there. -/
theorem frame_store (w : World) (c : Call) (s : Store) : w.Frame c { w with store := s } :=
  ⟨fun _ _ => rfl, fun _ => rfl, fun _ => rfl⟩

/-- Every call changes the part that it is about, and no other. -/
theorem frame_of_act (hact : w.act c = some (r, w', m)) : w.Frame c w' := by
  cases c with
  | store c =>
    have hplain : (w.handle (.store c)).map (fun r => (r.1, r.2, (none : Option Remainder))) =
        some (r, w', m) → w.Frame (.store c) w' := by
      intro h
      simp only [handle, Option.map_map, Option.map_eq_some_iff] at h
      obtain ⟨t, -, heq⟩ := h
      cases heq
      exact frame_store w _ _
    cases c with
    | draft c =>
      cases c with
      | commit =>
        simp only [act] at hact
        split at hact
        · cases hact
          exact frame_store w _ _
        · cases hact
          exact frame_store w _ _
      | _ => exact hplain hact
    | contacts c =>
      cases c with
      | delete user ids =>
        cases hact
        exact frame_store w _ _
      | _ => exact hplain hact
    | _ => exact hplain hact
  | lock buyer =>
    simp only [act, handle] at hact
    split at hact
    · cases hact
    · cases hact
      exact ⟨fun h => absurd rfl (h buyer), fun _ => rfl, fun _ => rfl⟩
  | unlock buyer =>
    cases hact
    exact ⟨fun _ h => absurd rfl (h buyer), fun _ => rfl, fun _ => rfl⟩
  | newJobId =>
    cases hact
    exact ⟨fun _ _ => rfl, fun h => absurd rfl h, fun _ => rfl⟩
  | job d =>
    cases hact
    exact ⟨fun _ _ => rfl, fun _ => rfl, fun h => absurd rfl (h d)⟩
  | _ =>
    cases hact
    exact ⟨fun _ _ => rfl, fun _ => rfl, fun _ => rfl⟩

/-- Job identifiers that have been given are never taken back. -/
theorem issued_le_of_act (hact : w.act c = some (r, w', m)) : w.issued ≤ w'.issued := by
  by_cases hc : c = .newJobId
  · subst hc
    cases hact
    exact Nat.le_succ _
  · exact Nat.le_of_eq ((frame_of_act hact).issued hc).symm

end Marketplace.World
