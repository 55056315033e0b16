import Mathlib.Data.List.Basic
import Mathlib.Tactic.SplitIfs
import Marketplace.Http.Message
set_option autoImplicit false

/-!
# Header values and their texts

A header has a text exactly if all its octets are visible ASCII, and then it is the value that is
sent for that text (`HeaderValue.text?_eq_some_iff`).  So whatever is decided on the text of a
header is decided on its octets, and a value with any other octet in it is decided on nothing.
-/

namespace Marketplace.HeaderValue

variable {b : UInt8} {c : Char} {s : String} {h : HeaderValue}

theorem isVisible_iff : isVisible b = true ↔ b.toNat = 9 ∨ 32 ≤ b.toNat ∧ b.toNat < 127 := by
  simp only [isVisible, Bool.or_eq_true, Bool.and_eq_true, decide_eq_true_eq, beq_iff_eq,
    UInt8.le_iff_toNat_le, UInt8.lt_iff_toNat_lt, ← UInt8.toNat_inj, or_comm]
  rfl

/-- A visible octet is the character of its number, and that character is sent as the octet. -/
theorem utf8EncodeChar_of_isVisible (hb : isVisible b = true) :
    String.utf8EncodeChar (Char.ofNat b.toNat) = [b] := by
  have hsmall : b.toNat < 127 := by
    rcases isVisible_iff.mp hb with heq | ⟨-, hlt⟩ <;> omega
  have hval : (Char.ofNat b.toNat).val.toNat = b.toNat := by
    rw [Char.ofNat, dif_pos (show b.toNat.isValidChar from Or.inl (by omega))]
    rfl
  simp only [String.utf8EncodeChar, hval, if_pos (show b.toNat ≤ 127 by omega), UInt8.ofNat_toNat]

/-- A character that is sent as visible octets is sent as one: longer forms begin beyond ASCII. -/
theorem exists_of_utf8EncodeChar (hc : (String.utf8EncodeChar c).all isVisible = true) :
    ∃ b, isVisible b = true ∧ c = Char.ofNat b.toNat := by
  rw [List.all_eq_true] at hc
  by_cases hsmall : c.val.toNat ≤ 127
  · have hoctets : String.utf8EncodeChar c = [UInt8.ofNat c.val.toNat] := by
      simp only [String.utf8EncodeChar, if_pos hsmall]
    refine ⟨_, hc _ (hoctets ▸ List.mem_singleton_self _), ?_⟩
    rw [UInt8.toNat_ofNat', Nat.mod_eq_of_lt (by omega)]
    exact (Char.ofNat_toNat c).symm
  · obtain ⟨first, rest, hoctets, hfirst⟩ : ∃ first rest,
        String.utf8EncodeChar c = first :: rest ∧ 127 ≤ first.toNat := by
      unfold String.utf8EncodeChar
      simp only [if_neg hsmall]
      split_ifs <;> refine ⟨_, _, rfl, ?_⟩ <;> rw [UInt8.toNat_ofNat'] <;> omega
    have hvisible := isVisible_iff.mp (hc first (hoctets ▸ List.mem_cons_self))
    omega

/-- A text that is sent as visible octets is read off them again, character by character. -/
theorem flatMap_octets {cs : List Char}
    (hcs : (cs.flatMap String.utf8EncodeChar).all isVisible = true) :
    cs.flatMap (fun c => (String.utf8EncodeChar c).map fun b => Char.ofNat b.toNat) = cs := by
  induction cs with
  | nil => rfl
  | cons c cs ih =>
    rw [List.flatMap_cons, List.all_append, Bool.and_eq_true] at hcs
    obtain ⟨b, hb, rfl⟩ := exists_of_utf8EncodeChar hcs.1
    rw [List.flatMap_cons, utf8EncodeChar_of_isVisible hb, ih hcs.2]
    rfl

/-- A header has a text exactly if all of it is visible and it is what is sent for the text. -/
theorem text?_eq_some_iff : h.text? = some s ↔ h.octets.all isVisible = true ∧ h = ofText s := by
  unfold text?
  constructor
  · intro htext
    split at htext
    · rename_i hvisible
      cases htext
      refine ⟨hvisible, ?_⟩
      obtain ⟨octets⟩ := h
      rw [List.all_eq_true] at hvisible
      have hsent : octets.flatMap (fun b => String.utf8EncodeChar (Char.ofNat b.toNat)) =
          octets.flatMap fun b => [b] :=
        List.flatMap_congr fun b hb => utf8EncodeChar_of_isVisible (hvisible b hb)
      rw [ofText, String.toList_ofList, List.flatMap_map, hsent, List.flatMap_singleton']
    · cases htext
  · rintro ⟨hvisible, rfl⟩
    rw [if_pos hvisible, ofText, List.map_flatMap, flatMap_octets hvisible, String.ofList_toList]

/-- What is sent for a text in ASCII without controls is visible. -/
theorem all_isVisible_ofText (hs : ∀ c ∈ s.toList, 32 ≤ c.toNat ∧ c.toNat < 127) :
    (ofText s).octets.all isVisible = true := by
  rw [List.all_eq_true]
  intro b hb
  obtain ⟨c, hc, hb⟩ := List.mem_flatMap.mp hb
  have hrange := hs c hc
  have hoctets : String.utf8EncodeChar c = [UInt8.ofNat c.toNat] := by
    unfold String.utf8EncodeChar
    exact if_pos (show c.toNat ≤ 127 by omega)
  rw [hoctets, List.mem_singleton] at hb
  rw [hb, isVisible_iff, UInt8.toNat_ofNat']
  omega

end Marketplace.HeaderValue
