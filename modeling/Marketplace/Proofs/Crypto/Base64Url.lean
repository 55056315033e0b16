import Marketplace.Crypto.Base64Url
import Marketplace.Text.Blank
set_option autoImplicit false

/-!
# Base64 and back

What is written of bytes has neither dots nor blanks in it, and is read as these bytes.  Nothing
with a dot is read.

Three bytes are four sextets, and what is left over at the end of a text of bytes takes two or
three.  The equations of the functions follow these groups, and so does each induction here: a group
for itself by arithmetic, and the rest by hypothesis.
-/

namespace Marketplace

namespace Base64Url

/-- The characters of base64 are visible, neither dots nor blanks. -/
theorem encodeSextet_plain (n : Nat) :
    encodeSextet n ≠ '.' ∧ Text.isBlank (encodeSextet n) = false ∧
      32 ≤ (encodeSextet n).toNat ∧ (encodeSextet n).toNat < 127 := by
  have hsmall : ∀ m < 62, encodeSextet m ≠ '.' ∧ Text.isBlank (encodeSextet m) = false ∧
      32 ≤ (encodeSextet m).toNat ∧ (encodeSextet m).toNat < 127 := by
    decide
  by_cases h : n < 62
  · exact hsmall n h
  · unfold encodeSextet
    rw [if_neg (by omega), if_neg (by omega), if_neg h]
    split <;> decide

/-- What holds of every character that a sextet is written as holds of every character of the
text. -/
theorem forall_mem_encode (P : Char → Prop) (hP : ∀ n, P (encodeSextet n)) (bs : List UInt8) :
    ∀ c ∈ encode bs, P c := by
  fun_induction encode bs with
  | case1 a b c rest n ih => simpa [hP] using ih
  | case2 a b n => simp [hP]
  | case3 a n => simp [hP]
  | case4 => exact fun _ hc => absurd hc List.not_mem_nil

/-- A part of a token has no dot, so it does not run into the next one. -/
theorem dot_not_mem_encode (bs : List UInt8) : '.' ∉ encode bs := fun hdot =>
  forall_mem_encode (· ≠ '.') (fun n => (encodeSextet_plain n).1) bs _ hdot rfl

/-! ## Round trip -/

/-- The alphabet gives different sextets different characters. -/
theorem decodeSextet?_encodeSextet {n : Nat} (h : n < 64) :
    decodeSextet? (encodeSextet n) = some n := by
  have hall : ∀ m < 64, decodeSextet? (encodeSextet m) = some m := by decide
  exact hall n h

/-- Bytes are read back from their text: the sextets of a group are the digits of its number, and so
are its bytes. -/
theorem decode_encode (bs : List UInt8) : decode (encode bs) = some bs := by
  fun_induction encode bs with
  | case1 a b c rest n ih =>
    have ha := a.toNat_lt
    have hb := b.toNat_lt
    have hc := c.toNat_lt
    have hn : ((n / 262144 * 64 + n / 4096 % 64) * 64 + n / 64 % 64) * 64 + n % 64 = n := by omega
    have hfirst : n / 65536 = a.toNat := by omega
    have hsecond : n / 256 % 256 = b.toNat := by omega
    have hthird : n % 256 = c.toNat := by omega
    rw [decode, decodeSextet?_encodeSextet (by omega), decodeSextet?_encodeSextet (by omega),
      decodeSextet?_encodeSextet (by omega), decodeSextet?_encodeSextet (by omega), ih]
    simp only [Option.bind_eq_bind, Option.bind_some, hn, hfirst, hsecond, hthird,
      UInt8.ofNat_toNat]
  | case2 a b n =>
    have ha := a.toNat_lt
    have hb := b.toNat_lt
    have hn : (n / 4096 * 64 + n / 64 % 64) * 64 + n % 64 = n := by omega
    have hrest : n % 4 = 0 := by omega
    have hfirst : n / 1024 = a.toNat := by omega
    have hsecond : n / 4 % 256 = b.toNat := by omega
    rw [decode, decodeSextet?_encodeSextet (by omega), decodeSextet?_encodeSextet (by omega),
      decodeSextet?_encodeSextet (by omega)]
    simp only [Option.bind_eq_bind, Option.bind_some, hn, hrest, hfirst, hsecond, UInt8.ofNat_toNat,
      beq_self_eq_true, if_true]
  | case3 a n =>
    have ha := a.toNat_lt
    have hn : n / 64 * 64 + n % 64 = n := by omega
    have hrest : n % 16 = 0 := by omega
    have hfirst : n / 16 = a.toNat := by omega
    rw [decode, decodeSextet?_encodeSextet (by omega), decodeSextet?_encodeSextet (by omega)]
    simp only [Option.bind_eq_bind, Option.bind_some, hn, hrest, hfirst, UInt8.ofNat_toNat,
      beq_self_eq_true, if_true]
  | case4 => rfl

/-- Each character of a text that is read has a sextet. -/
theorem decodeSextet?_isSome_of_decode {cs : List Char} {bs : List UInt8}
    (h : decode cs = some bs) : ∀ c ∈ cs, (decodeSextet? c).isSome = true := by
  fun_induction decode cs generalizing bs with
  | case1 a b c d rest ih =>
    simp only [Option.bind_eq_bind, Option.bind_eq_some_iff] at h
    obtain ⟨_, ha, _, hb, _, hc, _, hd, _, hrest, -⟩ := h
    simp only [List.forall_mem_cons]
    exact ⟨by rw [ha]; rfl, by rw [hb]; rfl, by rw [hc]; rfl, by rw [hd]; rfl, ih hrest⟩
  | case2 a b c =>
    simp only [Option.bind_eq_bind, Option.bind_eq_some_iff] at h
    obtain ⟨_, ha, _, hb, _, hc, -⟩ := h
    simp [ha, hb, hc]
  | case3 a b =>
    simp only [Option.bind_eq_bind, Option.bind_eq_some_iff] at h
    obtain ⟨_, ha, _, hb, -⟩ := h
    simp [ha, hb]
  | case4 a => cases h
  | case5 => exact nofun

/-- The dot has no sextet, so nothing with a dot is read. -/
theorem dot_not_mem_of_decode {cs : List Char} {bs : List UInt8} (h : decode cs = some bs) :
    '.' ∉ cs := fun hdot =>
  absurd (decodeSextet?_isSome_of_decode h '.' hdot) (by decide)

end Base64Url

end Marketplace
