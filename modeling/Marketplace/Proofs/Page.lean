import Mathlib.Algebra.Group.Nat.Defs
import Mathlib.Data.List.Basic
import Marketplace.Page
set_option autoImplicit false

/-!
# The pages of a list

Whoever asks for page after page of one list gets the list, whatever size is asked for
(`Page.series_cut`).
-/

namespace Marketplace

namespace PageRequest

variable {r : PageRequest}

theorem one_le_page (r : PageRequest) : 1 ≤ r.normalize.page := Nat.le_max_right _ _

theorem one_le_size (r : PageRequest) : 1 ≤ r.normalize.size :=
  Nat.le_min.mpr ⟨Nat.le_max_right _ _, by decide⟩

theorem size_le (r : PageRequest) : r.normalize.size ≤ maxSize := Nat.min_le_right _ _

@[simp] theorem normalize_normalize (r : PageRequest) : r.normalize.normalize = r.normalize := by
  have hpage := r.one_le_page
  have hsize := r.one_le_size
  have hmax := r.size_le
  show PageRequest.mk (max r.normalize.page 1) (min (max r.normalize.size 1) maxSize) = r.normalize
  rw [Nat.max_eq_left hpage, Nat.max_eq_left hsize, Nat.min_eq_left hmax]

/-- Where the page is a number of 32 bits, the number of entries before it is one of 64 bits. -/
theorem offset_lt (h : r.page < 2 ^ 32) : r.normalize.offset < 2 ^ 64 := by
  have hpage : r.normalize.page - 1 < 2 ^ 32 := by
    show max r.page 1 - 1 < 2 ^ 32
    omega
  have hsize : r.normalize.size ≤ 100 := r.size_le
  calc r.normalize.offset ≤ 2 ^ 32 * 100 := Nat.mul_le_mul (Nat.le_of_lt hpage) hsize
    _ < 2 ^ 64 := by decide

end PageRequest

namespace Page

variable {α : Type} {all : List α}

/-- The pages are those of one list, cut into pieces of a size. -/
structure Series (pages : Nat → Page α) (size : Nat) (all : List α) : Prop where
  zero : pages 0 = pages 1
  number : ∀ p, (pages p).page = max p 1
  sized : ∀ p, (pages p).size = size
  total : ∀ p, (pages p).total = all.length
  /-- The pages before an empty one, one behind the other, are the whole list. -/
  joined : ∀ n, (pages (n + 1)).items = [] →
    ((List.range n).flatMap fun p => (pages (p + 1)).items) = all
  /-- There is a first empty page, and those that follow it are empty too. -/
  ends : ∃ n ≤ all.length, ∀ p, (pages (p + 1)).items = [] ↔ n ≤ p
  /-- A page is full unless it is the last one that is not empty. -/
  full : ∀ p q, 1 ≤ p → p < q → (pages q).items ≠ [] → (pages p).items.length = size

/-- A list is cut in the same way for a request that has been normalized before. -/
theorem cut_normalize (all : List α) (r : PageRequest) : cut all r.normalize = cut all r := by
  simp only [cut, PageRequest.normalize_normalize]

/-- Pieces of one length, one behind the other, are the front of the list. -/
theorem flatMap_pieces (all : List α) (size n : Nat) :
    ((List.range n).flatMap fun p => (all.drop (p * size)).take size) = all.take (n * size) := by
  induction n with
  | zero => simp
  | succ n ih =>
    rw [List.range_succ, List.flatMap_append, ih, List.flatMap_singleton, Nat.succ_mul,
      List.take_add]

/-- A page begins behind the pages before it. -/
theorem items_cut_succ (all : List α) (p size : Nat) :
    (cut all ⟨p + 1, size⟩).items =
      (all.drop (p * (PageRequest.mk 1 size).normalize.size)).take
        (PageRequest.mk 1 size).normalize.size := by
  simp [cut, PageRequest.normalize, PageRequest.offset, PageRequest.limit]

theorem items_cut_succ_eq_nil_iff (all : List α) (p size : Nat) :
    (cut all ⟨p + 1, size⟩).items = [] ↔
      all.length ≤ p * (PageRequest.mk 1 size).normalize.size := by
  have hsize := (PageRequest.mk 1 size).one_le_size
  rw [items_cut_succ, List.take_eq_nil_iff, List.drop_eq_nil_iff]
  exact or_iff_right (Nat.ne_of_gt hsize)

/-- The pages of a list that is cut for every request are its pages in this sense. -/
theorem series_cut (all : List α) (size : Nat) :
    Series (fun p => cut all ⟨p, size⟩) (PageRequest.mk 1 size).normalize.size all where
  zero := rfl
  number := fun _ => rfl
  sized := fun _ => rfl
  total := fun _ => rfl
  joined := by
    intro n hempty
    simp only [items_cut_succ, flatMap_pieces]
    exact List.take_of_length_le ((items_cut_succ_eq_nil_iff all n size).mp hempty)
  ends := by
    have hsize := (PageRequest.mk 1 size).one_le_size
    generalize hk : (PageRequest.mk 1 size).normalize.size = k at hsize
    have hceil : ∀ p, (all.length + (k - 1)) / k ≤ p ↔ all.length ≤ p * k := by
      intro p
      rw [← Nat.lt_succ_iff, Nat.div_lt_iff_lt_mul hsize, Nat.succ_mul]
      omega
    refine ⟨(all.length + (k - 1)) / k, ?_, fun p => ?_⟩
    · exact (hceil _).mpr (Nat.le_mul_of_pos_right _ hsize)
    · rw [items_cut_succ_eq_nil_iff, hk, hceil]
  full := by
    intro p q hp hpq hq
    obtain ⟨p, rfl⟩ := Nat.exists_eq_add_of_le' hp
    obtain ⟨q, rfl⟩ := Nat.exists_eq_add_of_le' (Nat.lt_of_le_of_lt (Nat.zero_le _) hpq)
    have hlong := mt (items_cut_succ_eq_nil_iff all q size).mpr hq
    rw [items_cut_succ, List.length_take, List.length_drop]
    generalize (PageRequest.mk 1 size).normalize.size = k at hlong ⊢
    have hbefore : (p + 1) * k ≤ q * k := Nat.mul_le_mul_right k (by omega)
    rw [Nat.succ_mul] at hbefore
    omega

end Page

end Marketplace
