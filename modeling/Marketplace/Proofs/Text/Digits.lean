import Mathlib.Algebra.Ring.Int.Defs
import Mathlib.Algebra.Ring.Nat
import Marketplace.Text.Integer
set_option autoImplicit false

/-!
# Digits

What a list of digits denotes.  A reader of integers takes every number that its range holds,
whatever zeros stand in front (`readIntegerChars_eq_ok_iff`), and the decimal text of a number
denotes it.
-/

namespace Marketplace.Text

/-! ## Reading digits -/

/-- The number that is written by digits behind those of another one.  Readers go through digits
from the left, so this is what they have at each place. -/
def appendDigits (n : Nat) (cs : List Char) : Nat :=
  cs.foldl (fun n c => 10 * n + (c.toNat - '0'.toNat)) n

/-- More digits make no smaller number, so a reader that is beyond its limit stays so. -/
theorem le_appendDigits (n : Nat) (cs : List Char) : n ≤ appendDigits n cs := by
  induction cs generalizing n with
  | nil => exact Nat.le_refl n
  | cons c cs ih =>
    have hnext := ih (10 * n + (c.toNat - '0'.toNat))
    rw [appendDigits, List.foldl_cons, ← appendDigits]
    omega

theorem appendDigits_lt {cs : List Char} (h : cs.all Char.isDigit = true) (n : Nat) :
    appendDigits n cs < (n + 1) * 10 ^ cs.length := by
  induction cs generalizing n with
  | nil => simp [appendDigits]
  | cons c cs ih =>
    rw [List.all_cons, Bool.and_eq_true] at h
    have hc : c.toNat ≤ 57 := by
      have hdigit := h.1
      simp only [Char.isDigit, Bool.and_eq_true, decide_eq_true_eq] at hdigit
      exact hdigit.2
    have hnext := ih h.2 (10 * n + (c.toNat - '0'.toNat))
    have hstep : 10 * n + (c.toNat - '0'.toNat) + 1 ≤ (n + 1) * 10 := by
      have hzero : '0'.toNat = 48 := rfl
      omega
    calc appendDigits (10 * n + (c.toNat - '0'.toNat)) cs
        < (10 * n + (c.toNat - '0'.toNat) + 1) * 10 ^ cs.length := hnext
      _ ≤ (n + 1) * 10 * 10 ^ cs.length := Nat.mul_le_mul_right _ hstep
      _ = (n + 1) * 10 ^ (cs.length + 1) := by rw [Nat.mul_assoc, Nat.pow_succ']

/-- So many digits denote a number below that power of ten. -/
theorem digitsValue_lt {cs : List Char} (h : cs.all Char.isDigit = true) :
    digitsValue cs < 10 ^ cs.length := by
  have hlt := appendDigits_lt h 0
  rwa [Nat.zero_add, Nat.one_mul] at hlt

/-- Digits are read as the number that they write, up to the limit.  The reader checks at each
digit, and the number at the end is what decides. -/
theorem extendBy_eq_ok_iff {limit : Nat} {beyond : IntegerFault} {cs : List Char}
    (hdigits : cs.all Char.isDigit = true) {n m : Nat} (hn : n ≤ limit) :
    extendBy limit beyond n cs = .ok m ↔ appendDigits n cs = m ∧ m ≤ limit := by
  induction cs generalizing n with
  | nil =>
    simp only [extendBy, appendDigits, List.foldl_nil, Except.ok.injEq]
    exact ⟨fun h => ⟨h, h ▸ hn⟩, fun h => h.1⟩
  | cons c cs ih =>
    rw [List.all_cons, Bool.and_eq_true] at hdigits
    simp only [extendBy, hdigits.1, if_true]
    split
    · rename_i hbeyond
      have hgrow := le_appendDigits (10 * n + (c.toNat - '0'.toNat)) cs
      refine ⟨nofun, fun h => ?_⟩
      have hvalue : appendDigits (10 * n + (c.toNat - '0'.toNat)) cs = m := h.1
      omega
    · rename_i hwithin
      exact ih hdigits.2 (Nat.not_lt.mp hwithin)

/-- A text of digits is read as the number that they write, if 64 bits hold it.  It may have any
number of zeros in front. -/
theorem readIntegerChars_eq_ok_iff {cs : List Char} (hdigits : isDigits cs = true) {n : Int} :
    readIntegerChars .signed64 cs = .ok n ↔ (digitsValue cs : Int) = n ∧ n < 2 ^ 63 := by
  unfold isDigits at hdigits
  rw [Bool.and_eq_true, Bool.not_eq_true', List.isEmpty_eq_false_iff] at hdigits
  obtain ⟨hne, hall⟩ := hdigits
  have hread : readIntegerChars .signed64 cs =
      (extendBy 9223372036854775807 .tooLarge 0 cs).map fun n => (n : Int) := by
    unfold readIntegerChars readMagnitude
    split
    · exact absurd rfl hne
    · cases hall
    · cases hall
    · rw [if_neg (by rwa [List.isEmpty_iff])]
      rfl
  rw [hread]
  have hextend := fun m => @extendBy_eq_ok_iff 9223372036854775807 .tooLarge cs hall 0 m (by decide)
  cases hvalue : extendBy 9223372036854775807 .tooLarge 0 cs with
  | error f =>
    refine ⟨nofun, fun h => ?_⟩
    have hnot := (hextend (digitsValue cs)).mpr ⟨rfl, by omega⟩
    rw [hvalue] at hnot
    cases hnot
  | ok m =>
    obtain ⟨rfl, hle⟩ := (hextend m).mp hvalue
    have hbound : digitsValue cs ≤ 9223372036854775807 := hle
    show Except.ok (digitsValue cs : Int) = .ok n ↔ _
    rw [Except.ok.injEq]
    exact ⟨fun h => ⟨h, by omega⟩, fun h => h.1⟩

/-! ## Writing digits -/

theorem appendDigits_eq_ofDigitChars (n : Nat) (cs : List Char) :
    appendDigits n cs = Nat.ofDigitChars 10 cs n :=
  Nat.ofDigitChars_eq_foldl.symm

theorem digitsValue_eq_ofDigitChars (cs : List Char) :
    digitsValue cs = Nat.ofDigitChars 10 cs 0 :=
  appendDigits_eq_ofDigitChars 0 cs

/-- The decimal text of a number denotes it. -/
@[simp]
theorem digitsValue_toDigits (n : Nat) : digitsValue (Nat.toDigits 10 n) = n := by
  rw [digitsValue_eq_ofDigitChars, Nat.ofDigitChars_ten_toDigits]

theorem all_isDigit_toDigits (n : Nat) : (Nat.toDigits 10 n).all Char.isDigit = true :=
  List.all_eq_true.mpr fun _ => Nat.isDigit_of_mem_toDigits (by decide) (by decide)

theorem isDigits_toDigits (n : Nat) : isDigits (Nat.toDigits 10 n) = true := by
  simp [isDigits, Nat.toDigits_ne_nil, all_isDigit_toDigits]

/-- Only zero is written with a zero in front, which is what the grammar of numbers asks for. -/
theorem toDigits_eq_zero_cons {n : Nat} {cs : List Char} (h : Nat.toDigits 10 n = '0' :: cs) :
    n = 0 ∧ cs = [] := by
  induction n using Nat.strongRecOn generalizing cs with
  | ind n ih =>
    by_cases hsmall : n < 10
    · rw [Nat.toDigits_of_lt_base hsmall, List.cons.injEq, Nat.digitChar_eq_zero] at h
      exact ⟨h.1, h.2.symm⟩
    · rw [Nat.toDigits_of_base_le (by decide) (by omega)] at h
      obtain ⟨c, ds, hds⟩ := List.exists_cons_of_ne_nil (@Nat.toDigits_ne_nil (n / 10) 10)
      rw [hds, List.cons_append, List.cons.injEq] at h
      have hzero := ih (n / 10) (by omega) (hds.trans (by rw [h.1]))
      omega

theorem toList_toString_natCast (n : Nat) : (toString (n : Int)).toList = Nat.toDigits 10 n := by
  change (Int.repr n).toList = _
  rw [Int.repr_eq_if, if_pos (Int.natCast_nonneg n), Int.toNat_natCast, Nat.repr_eq_ofList_toDigits,
    String.toList_ofList]

theorem toList_toString_neg {n : Nat} (h : 0 < n) :
    (toString (-(n : Int))).toList = '-' :: Nat.toDigits 10 n := by
  change (Int.repr (-n)).toList = _
  rw [Int.repr_eq_if, if_neg (by omega), Int.neg_neg, Int.toNat_natCast,
    Nat.repr_eq_ofList_toDigits, String.toList_append, @String.toList_ofList (Nat.toDigits 10 n)]
  rfl

end Marketplace.Text
