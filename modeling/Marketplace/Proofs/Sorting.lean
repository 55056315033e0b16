import Marketplace.Id
import Marketplace.Proofs.Table
set_option autoImplicit false

/-!
# Sorted lists

Lists that are sorted for readers hold each row once, so they ascend strictly.
-/

namespace Marketplace

/-! ## Identifiers -/

namespace Id

variable {kind : IdKind} {i j k : Id kind}

theorem le_trans (hij : i.le j = true) (hjk : j.le k = true) : i.le k = true := by
  simp only [le, decide_eq_true_eq] at hij hjk ⊢
  omega

theorem le_total (i j : Id kind) : (i.le j || j.le i) = true := by
  simp only [le, Bool.or_eq_true, decide_eq_true_eq]
  omega

theorem lt_of_le (hle : i.le j = true) (hne : i ≠ j) : i.value < j.value := by
  simp only [le, decide_eq_true_eq] at hle
  refine Int.lt_iff_le_and_ne.mpr ⟨hle, fun hvalue => hne ?_⟩
  cases i
  cases j
  exact congrArg Id.mk hvalue

end Id

/-! ## Rows -/

/-- Sorted by a total order, rows that are not there twice ascend strictly. -/
theorem pairwise_mergeSort_strict {α : Type} {le : α → α → Bool} {lt : α → α → Prop}
    (htrans : ∀ a b c, le a b = true → le b c = true → le a c = true)
    (htotal : ∀ a b, (le a b || le b a) = true) {rows : List α} (hrows : rows.Nodup)
    (hlt : ∀ a ∈ rows, ∀ b ∈ rows, a ≠ b → le a b = true → lt a b) :
    (rows.mergeSort le).Pairwise lt := by
  have hsorted := List.pairwise_mergeSort htrans htotal rows
  have hnodup : (rows.mergeSort le).Nodup := (List.mergeSort_perm rows le).nodup_iff.mpr hrows
  refine (hsorted.and hnodup).imp_of_mem fun {a b} ha hb hab => ?_
  exact hlt a (List.mem_mergeSort.mp ha) b (List.mem_mergeSort.mp hb) hab.2 hab.1

namespace Table

variable {κ α : Type} [DecidableEq κ] {t : Table κ α} {key : α → κ}

/-- Rows that tell the key under which they are stored are found by it. -/
theorem mem_values_iff_get? (h : t.All fun k a => key a = k) {a : α} :
    a ∈ t.values ↔ t.get? (key a) = some a := by
  rw [mem_values_iff]
  refine ⟨?_, fun ha => ⟨key a, ha⟩⟩
  rintro ⟨k, ha⟩
  rwa [h k a ha]

/-- No two of them tell the same key. -/
theorem pairwise_values (h : t.All fun k a => key a = k) :
    t.values.Pairwise fun a b => key a ≠ key b := by
  have hkeys : t.values.map key = t.entries.map Prod.fst := by
    rw [values, List.map_map]
    exact List.map_congr_left fun e he => h e.1 e.2 (mem_entries_iff.mp he)
  have hnodup := t.keys_nodup
  rw [← hkeys] at hnodup
  exact List.pairwise_map.mp hnodup

/-- So none is stored twice. -/
theorem nodup_values (h : t.All fun k a => key a = k) : t.values.Nodup :=
  (pairwise_values h).imp fun hne heq => hne (congrArg key heq)

end Table

end Marketplace
