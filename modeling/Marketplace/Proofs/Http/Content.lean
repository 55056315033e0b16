import Mathlib.Tactic.SplitIfs
import Marketplace.Http.Message
set_option autoImplicit false

/-!
# Bodies and their texts

A body that is sent for a text is read as that text (`HttpContent.text_ofText`).  A body may also
have octets that are no character.  What is put in their place has to be refused wherever they would
be, and only there: a text literal with it denotes no text whatever stands around it
(`HttpContent.unitsText?_noCharacter`), and no token begins with it
(`HttpContent.nextToken?_noCharacter`).
-/

namespace Marketplace

namespace Text

/-! ## Characters of one to four octets

The first octet of a character tells how many follow, and which range the second one has to be in.
The ranges keep out characters that could be written shorter, halves of surrogate pairs, and numbers
beyond the last character; none of these is the number of a character of a text.
-/

/-- An octet that follows brings the next six bits. -/
theorem followBytes_cons {n s low high : Nat} (hs : s < 64) (hlow : low ≤ s + 128)
    (hhigh : s + 128 ≤ high) (rs : List (Nat × Nat)) (bs : List UInt8) :
    followBytes n ((low, high) :: rs) (UInt8.ofNat (s + 128) :: bs) =
      followBytes (64 * n + s) rs bs := by
  have hoctet : (UInt8.ofNat (s + 128)).toNat = s + 128 := by
    rw [UInt8.toNat_ofNat']
    omega
  rw [followBytes, hoctet, Nat.add_sub_cancel]
  simp [hlow, hhigh]

theorem leadByte?_two {q : Nat} (hq : q < 32) (hlong : 2 ≤ q) :
    leadByte? (q + 192) = some (q, [(0x80, 0xBF)]) := by
  have hall : ∀ q < 32, q < 2 ∨ leadByte? (q + 192) = some (q, [(0x80, 0xBF)]) := by decide
  exact (hall q hq).resolve_left (by omega)

theorem leadByte?_three {q s : Nat} (hq : q < 16) (hs : s < 64) (hlong : q = 0 → 32 ≤ s)
    (hvalid : q = 13 → s < 32) : ∃ low high,
      leadByte? (q + 224) = some (q, [(low, high), (0x80, 0xBF)]) ∧ low ≤ s + 128 ∧
        s + 128 ≤ high := by
  have hothers : ∀ q < 16, (q = 0 ∨ q = 13) ∨
      leadByte? (q + 224) = some (q, [(0x80, 0xBF), (0x80, 0xBF)]) := by decide
  by_cases hfirst : q = 0
  · subst hfirst
    exact ⟨0xA0, 0xBF, rfl, by omega, by omega⟩
  · by_cases hsurrogate : q = 13
    · subst hsurrogate
      exact ⟨0x80, 0x9F, rfl, by omega, by omega⟩
    · exact ⟨0x80, 0xBF, (hothers q hq).resolve_left (by omega), by omega, by omega⟩

theorem leadByte?_four {q s : Nat} (hq : q < 5) (hs : s < 64) (hlong : q = 0 → 16 ≤ s)
    (hvalid : q = 4 → s < 16) : ∃ low high,
      leadByte? (q + 240) = some (q, [(low, high), (0x80, 0xBF), (0x80, 0xBF)]) ∧
        low ≤ s + 128 ∧ s + 128 ≤ high := by
  have hothers : ∀ q < 5, (q = 0 ∨ q = 4) ∨
      leadByte? (q + 240) = some (q, [(0x80, 0xBF), (0x80, 0xBF), (0x80, 0xBF)]) := by decide
  by_cases hfirst : q = 0
  · subst hfirst
    exact ⟨0x90, 0xBF, rfl, by omega, by omega⟩
  · by_cases hlast : q = 4
    · subst hlast
      exact ⟨0x80, 0x8F, rfl, by omega, by omega⟩
    · exact ⟨0x80, 0xBF, (hothers q hq).resolve_left (by omega), by omega, by omega⟩

theorem readUtf8_cons {fuel n m : Nat} {ranges : List (Nat × Nat)} {b : UInt8} {k : Nat}
    {bs rest : List UInt8} (hb : b.toNat = k) (hlead : leadByte? k = some (n, ranges))
    (hfollow : followBytes n ranges bs = (some m, rest)) :
    readUtf8 (fuel + 1) (b :: bs) = some (Char.ofNat m) :: readUtf8 fuel rest := by
  subst hb
  simp only [readUtf8, hlead, hfollow, Option.map_some]

/-- A character is read back from its octets, whatever follows them. -/
theorem readUtf8_encodeChar (fuel : Nat) (c : Char) (bs : List UInt8) :
    readUtf8 (fuel + 1) (String.utf8EncodeChar c ++ bs) = some c :: readUtf8 fuel bs := by
  obtain ⟨v, hv⟩ : ∃ v, v = c.val.toNat := ⟨_, rfl⟩
  have hvalid : v < 55296 ∨ 57343 < v ∧ v < 1114112 := hv ▸ c.valid
  have hchar : Char.ofNat v = c := by
    rw [hv]
    exact Char.ofNat_toNat c
  have hoctet {n : Nat} (hn : n < 256) : (UInt8.ofNat n).toNat = n := by
    rw [UInt8.toNat_ofNat']
    omega
  have hmod (n : Nat) : n % 64 < 64 := Nat.mod_lt _ (by decide)
  simp only [String.utf8EncodeChar, ← hv]
  rw [← hchar]
  split
  · rw [List.cons_append, List.nil_append]
    exact readUtf8_cons (hoctet (by omega)) (if_pos (by omega)) rfl
  · split
    · rw [List.cons_append, List.cons_append, List.nil_append]
      refine readUtf8_cons (hoctet (by omega)) (leadByte?_two (by omega) (by omega)) ?_
      rw [followBytes_cons (hmod v) (by omega) (by omega), followBytes]
      congr 2
      omega
    · split
      · obtain ⟨low, high, hlead, hlow, hhigh⟩ := @leadByte?_three (v / 4096 % 16) (v / 64 % 64)
          (by omega) (hmod _) (by omega) (by omega)
        rw [List.cons_append, List.cons_append, List.cons_append, List.nil_append]
        refine readUtf8_cons (hoctet (by omega)) hlead ?_
        rw [followBytes_cons (hmod _) hlow hhigh, followBytes_cons (hmod v) (by omega) (by omega),
          followBytes]
        congr 2
        omega
      · obtain ⟨low, high, hlead, hlow, hhigh⟩ := @leadByte?_four (v / 262144 % 8)
          (v / 4096 % 64) (by omega) (hmod _) (by omega) (by omega)
        rw [List.cons_append, List.cons_append, List.cons_append, List.cons_append,
          List.nil_append]
        refine readUtf8_cons (hoctet (by omega)) hlead ?_
        rw [followBytes_cons (hmod _) hlow hhigh, followBytes_cons (hmod _) (by omega) (by omega),
          followBytes_cons (hmod v) (by omega) (by omega), followBytes]
        congr 2
        omega

/-- Characters are read back from their octets, one after the other; one unit of fuel is enough for
each. -/
theorem readUtf8_encode {fuel : Nat} {cs : List Char} (hfuel : cs.length ≤ fuel) :
    readUtf8 fuel (cs.flatMap String.utf8EncodeChar) = cs.map some := by
  induction cs generalizing fuel with
  | nil => cases fuel <;> rfl
  | cons c cs ih =>
    obtain ⟨n, rfl⟩ := Nat.exists_eq_add_of_le' hfuel
    rw [List.length_cons, ← Nat.add_assoc, List.flatMap_cons, readUtf8_encodeChar,
      ih (Nat.le_add_left _ _), List.map_cons]

/-- A character takes an octet at least, so the number of octets is enough fuel. -/
theorem length_le_length_encode (cs : List Char) :
    cs.length ≤ (cs.flatMap String.utf8EncodeChar).length := by
  induction cs with
  | nil => exact Nat.le_refl 0
  | cons c cs ih =>
    have hone : 0 < (String.utf8EncodeChar c).length := by
      simp only [String.utf8EncodeChar]
      split_ifs <;> exact Nat.zero_lt_succ _
    rw [List.flatMap_cons, List.length_append, List.length_cons]
    omega

end Text

namespace HttpContent

open Json (Unit16 unitsText? scanText nextToken?)

/-- A body that is sent for a text is read as the text. -/
theorem text_ofText (s : String) : (ofText s).text = s := by
  rw [text, ofText, Text.readUtf8_encode (Text.length_le_length_encode _), List.flatMap_map]
  exact (congrArg String.ofList (List.flatMap_singleton' _)).trans String.ofList_toList

/-- In a text literal, what stands for octets that are no character is a letter and half of a
surrogate pair. -/
theorem scanText_noCharacter (fuel : Nat) (cs : List Char) :
    scanText (fuel + 2) (noCharacter ++ cs) =
      (scanText fuel cs).map fun r => (.char 'u' :: .code 0xDC00 :: r.1, r.2) := by
  simp [noCharacter, scanText, Json.hexUnit?, Json.hexValue?, Option.map_map, Function.comp_def]

/-- A literal with these two denotes no text: the letter keeps any half before it from being the
first of a pair with the half behind it. -/
theorem unitsText?_noCharacter (us vs : List Unit16) :
    unitsText? (us ++ .char 'u' :: .code 0xDC00 :: vs) = none := by
  have hhalf : unitsText? (.code 0xDC00 :: vs) = none := by
    unfold unitsText?
    exact if_pos rfl
  have hhere : unitsText? (.char 'u' :: .code 0xDC00 :: vs) = none := by
    rw [unitsText?, hhalf, Option.map_none]
  induction us using Json.unitsText?.induct with
  | case1 => exact hhere
  | case2 c us ih => rw [List.cons_append, unitsText?, ih, Option.map_none]
  | case3 n us hlow =>
    rw [List.cons_append]
    unfold unitsText?
    exact if_pos hlow
  | case4 n hlow hhigh m us hpair ih =>
    rw [List.cons_append, List.cons_append]
    unfold unitsText?
    rw [if_neg hlow, if_pos hhigh]
    simp only [if_pos hpair, ih, Option.map_none]
  | case5 n hlow hhigh m us hpair =>
    rw [List.cons_append, List.cons_append]
    unfold unitsText?
    rw [if_neg hlow, if_pos hhigh]
    exact if_neg hpair
  | case6 n us hlow hhigh hlone =>
    -- Behind the first half of a pair stands the letter, or what was there is no second half.
    rw [List.cons_append]
    unfold unitsText?
    rw [if_neg hlow, if_pos hhigh]
    cases us with
    | nil => rfl
    | cons u us =>
      cases u with
      | char c => rfl
      | code m => exact absurd rfl (hlone m us)
  | case7 n us hlow hhigh ih =>
    rw [List.cons_append]
    unfold unitsText?
    rw [if_neg hlow, if_neg hhigh, ih, Option.map_none]

/-- No token begins with what stands for octets that are no character. -/
theorem nextToken?_noCharacter (cs : List Char) : nextToken? (noCharacter ++ cs) = none := by
  simp [noCharacter, nextToken?, Json.numberToken?, Json.scanNumber, Json.scanWhole]

end HttpContent

end Marketplace
