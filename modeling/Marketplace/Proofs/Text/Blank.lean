import Mathlib.Data.List.TakeWhile
import Marketplace.Text.Blank
set_option autoImplicit false

/-!
# Trimmed texts

What trimming leaves neither begins nor ends with a blank, and it leaves nothing of a text that
holds blanks only.  A text without blanks is all that is left of it with blanks around it
(`trimChars_padded`).

Trimming drops blanks at the front, turns the text around, and drops them again.  What is known of
dropping at one end therefore counts twice, the second time through `List.reverse`.
-/

namespace Marketplace.Text

/-- The text neither begins nor ends with a blank. -/
def Trimmed (s : String) : Prop :=
  (∀ c, s.toList.head? = some c → isBlank c = false) ∧
    ∀ c, s.toList.getLast? = some c → isBlank c = false

theorem trimmed_empty : Trimmed "" := ⟨nofun, nofun⟩

/-- Dropping blanks stops at the first character that is none. -/
theorem isBlank_head_dropBlanks {cs : List Char} {c : Char}
    (h : (dropBlanks cs).head? = some c) : isBlank c = false := by
  have hstop := List.head?_dropWhile_not isBlank cs
  rw [dropBlanks] at h
  rwa [h] at hstop

/-- Trimming keeps the beginning of what is left when the blanks in front are gone. -/
theorem trimChars_prefix (cs : List Char) : trimChars cs <+: dropBlanks cs := by
  have hsuffix : dropBlanks (dropBlanks cs).reverse <:+ (dropBlanks cs).reverse :=
    List.dropWhile_suffix _
  rw [trimChars, ← List.reverse_suffix, List.reverse_reverse]
  exact hsuffix

/-- A trimmed text is trimmed at both ends; the second trimming takes nothing from the front. -/
theorem trimmed_trim (s : String) : Trimmed (trim s) := by
  rw [Trimmed, trim, String.toList_ofList]
  constructor
  · intro c hc
    obtain ⟨rest, hrest⟩ := trimChars_prefix s.toList
    have hhead : (dropBlanks s.toList).head? = some c := by
      rw [← hrest, List.head?_append, hc, Option.some_or]
    exact isBlank_head_dropBlanks hhead
  · intro c hc
    rw [trimChars, List.getLast?_reverse] at hc
    exact isBlank_head_dropBlanks hc

/-- What is left of a text that is not blank is the trimmed text, which is not empty. -/
theorem nonBlank?_eq_some_iff {s t : String} : nonBlank? s = some t ↔ t = trim s ∧ t ≠ "" := by
  unfold nonBlank?
  by_cases hempty : trim s = ""
  · rw [hempty]
    exact iff_of_false nofun fun h => h.2 h.1
  · have hsome : (trim s).isEmpty = false := by
      rw [Bool.eq_false_iff, ne_eq, String.isEmpty_iff]
      exact hempty
    simp only [hsome, Bool.false_eq_true, if_false, Option.some.injEq]
    constructor
    · rintro rfl
      exact ⟨rfl, hempty⟩
    · rintro ⟨rfl, -⟩
      rfl

theorem nonBlank?_eq_none_iff {s : String} : nonBlank? s = none ↔ trim s = "" := by
  rw [Option.eq_none_iff_forall_ne_some]
  simp only [ne_eq, nonBlank?_eq_some_iff, not_and, Decidable.not_not]
  exact ⟨fun h => h _ rfl, fun h t ht => ht.trans h⟩

/-- Nothing is left of a text exactly if it holds blanks only. -/
theorem trim_eq_empty_iff {s : String} : trim s = "" ↔ isBlankText s = true := by
  have hchars : trim s = "" ↔ trimChars s.toList = [] := by
    rw [trim, ← String.toList_inj, String.toList_ofList]
    rfl
  rw [hchars, trimChars, List.reverse_eq_nil_iff, dropBlanks, List.dropWhile_eq_nil_iff,
    isBlankText, List.all_eq_true]
  constructor
  · intro h c hc
    cases hdrop : dropBlanks s.toList with
    | nil => exact List.dropWhile_eq_nil_iff.mp hdrop c hc
    | cons b bs =>
      have hhead : (dropBlanks s.toList).head? = some b := by rw [hdrop, List.head?_cons]
      have hblank := isBlank_head_dropBlanks hhead
      rw [h b (by simp [hdrop])] at hblank
      cases hblank
  · intro h c hc
    exact h c ((List.dropWhile_suffix _).subset (List.mem_reverse.mp hc))

theorem nonBlank?_of_not_blank {s : String} (h : isBlankText s = false) :
    nonBlank? s = some (trim s) := by
  refine nonBlank?_eq_some_iff.mpr ⟨rfl, fun hempty => ?_⟩
  rw [trim_eq_empty_iff, h] at hempty
  cases hempty

/-! ## Texts without blanks -/

/-- A digit is no blank. -/
theorem isBlank_of_isDigit {c : Char} (h : c.isDigit = true) : isBlank c = false := by
  simp only [Char.isDigit, Bool.and_eq_true, decide_eq_true_eq, ge_iff_le,
    UInt32.le_iff_toNat_le] at h
  have hlow : 48 ≤ c.toNat := h.1
  have hhigh : c.toNat ≤ 57 := h.2
  simp [isBlank]
  omega

/-- Nothing is dropped from the front of a text that begins with no blank. -/
theorem dropBlanks_cons {c : Char} (h : isBlank c = false) (cs : List Char) :
    dropBlanks (c :: cs) = c :: cs :=
  List.dropWhile_cons_of_neg (by simp [h])

/-- Blanks around a text without blanks are all that is trimmed. -/
theorem trimChars_padded {left cs right : List Char} (hleft : ∀ c ∈ left, isBlank c = true)
    (hcs : ∀ c ∈ cs, isBlank c = false) (hright : ∀ c ∈ right, isBlank c = true) :
    trimChars (left ++ (cs ++ right)) = cs := by
  have hdrop : dropBlanks (left ++ (cs ++ right)) = dropBlanks (cs ++ right) :=
    List.dropWhile_append_of_pos hleft
  rw [trimChars, hdrop]
  cases cs with
  | nil => simp [dropBlanks, List.dropWhile_eq_nil_iff.mpr hright]
  | cons c cs =>
    have hlast : ∃ d ds, (c :: cs).reverse = d :: ds ∧ isBlank d = false := by
      obtain ⟨d, ds, hds⟩ := List.exists_cons_of_ne_nil (List.reverse_ne_nil_iff.mpr
        (List.cons_ne_nil c cs))
      exact ⟨d, ds, hds, hcs d (List.mem_reverse.mp (hds ▸ List.mem_cons_self))⟩
    obtain ⟨d, ds, hds, hd⟩ := hlast
    have hreverse : dropBlanks (right.reverse ++ (c :: cs).reverse) = (c :: cs).reverse := by
      rw [dropBlanks, List.dropWhile_append_of_pos (fun b hb => hright b (List.mem_reverse.mp hb)),
        hds]
      exact dropBlanks_cons hd ds
    rw [List.cons_append, dropBlanks_cons (hcs c List.mem_cons_self), ← List.cons_append,
      List.reverse_append, hreverse, List.reverse_reverse]

/-- A text without blanks is not trimmed. -/
theorem trimChars_eq_self {cs : List Char} (h : ∀ c ∈ cs, isBlank c = false) :
    trimChars cs = cs := by
  have hnone : ∀ c ∈ ([] : List Char), isBlank c = true := nofun
  simpa using trimChars_padded hnone h hnone

end Marketplace.Text
