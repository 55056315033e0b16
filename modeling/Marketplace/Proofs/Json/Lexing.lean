import Mathlib.Data.List.DropRight
import Marketplace.Json.Token
set_option autoImplicit false

/-!
# Splitting texts into tokens

Tokens are found one after the other, and nothing of what stands behind one takes part in it, except
for characters that go on with a number.  So the tokens of two texts, one behind the other, are
those of the first and then those of the second (`lex_append`).

Numbers are why this takes a proof.  They have no end of their own, so a digit in front of other
digits is another number than it is by itself.  All other tokens end with their last character, and
the lemmas on them have no hypothesis on what follows.
-/

namespace Marketplace.Json

/-- No number goes on with these characters.  Of all tokens only a number ends where something else
begins: the others have a last character of their own.  So this is all that has to be asked of what
stands behind a token. -/
def EndsNumber (cs : List Char) : Prop :=
  ∀ c, cs.head? = some c → c.isDigit = false ∧ c ≠ '.' ∧ c ≠ 'e' ∧ c ≠ 'E'

theorem endsNumber_cons {c : Char} {cs : List Char} (hdigit : c.isDigit = false) (hpoint : c ≠ '.')
    (he : c ≠ 'e') (hE : c ≠ 'E') : EndsNumber (c :: cs) := by
  intro d hd
  cases hd
  exact ⟨hdigit, hpoint, he, hE⟩

/-! ## Scanning with more behind

A scanner that has found something finds the same when more text stands behind, and leaves it over.
The lemmas follow the scanners: the parts of a number ask that what stands behind does not go on
with it, text literals do not.
-/

section Append

variable {cs ds rest : List Char}

/-- Digits end where the text behind them begins, for it does not begin with a digit. -/
theorem takeWhile_isDigit_append (hds : EndsNumber ds) (cs : List Char) :
    (cs ++ ds).takeWhile Char.isDigit = cs.takeWhile Char.isDigit := by
  have hnone : ds.takeWhile Char.isDigit = [] := by
    cases ds with
    | nil => rfl
    | cons d ds => exact List.takeWhile_cons_of_neg (by simp [(hds d rfl).1])
  rw [List.takeWhile_append, hnone, List.append_nil]
  split
  · rename_i hall
    exact (List.IsPrefix.eq_of_length (List.takeWhile_prefix _) hall).symm
  · rfl

/-- What is left behind the digits has the other text behind it. -/
theorem dropWhile_isDigit_append (hds : EndsNumber ds) (cs : List Char) :
    (cs ++ ds).dropWhile Char.isDigit = cs.dropWhile Char.isDigit ++ ds := by
  have hsplit := List.takeWhile_append_dropWhile (p := Char.isDigit) (l := cs ++ ds)
  rw [takeWhile_isDigit_append hds] at hsplit
  refine List.append_cancel_left (hsplit.trans ?_)
  rw [← List.append_assoc, List.takeWhile_append_dropWhile]

/-- The whole part of a number: a single zero, or digits that do not begin with one.  A zero is
followed by no digit, so what stands behind must not be one here either. -/
theorem scanWhole_append (hds : EndsNumber ds) {w : List Char}
    (h : scanWhole cs = some (w, rest)) : scanWhole (cs ++ ds) = some (w, rest ++ ds) := by
  unfold scanWhole at h
  split at h
  · rename_i cs
    cases cs with
    | nil =>
      cases h
      cases ds with
      | nil => rfl
      | cons d ds => simp [scanWhole, (hds d rfl).1]
    | cons c cs =>
      simp only at h
      split at h
      · cases h
      · rename_i hc
        cases h
        simp [scanWhole, hc]
  · rename_i hzero
    simp only at h
    split at h
    · cases h
    · rename_i hne
      cases h
      unfold scanWhole
      split
      · rename_i cs' heq
        cases cs with
        | nil => simp at hne
        | cons c cs => exact absurd (by rw [(List.cons.inj heq).1]) (hzero cs)
      · simp only [takeWhile_isDigit_append hds, dropWhile_isDigit_append hds]
        rw [if_neg hne]

/-- The fraction of a number, or nothing where there is no point.  In the second case the text may
have ended, so that what stands behind must not begin with a point. -/
theorem scanFraction_append (hds : EndsNumber ds) {fraction : Option (List Char)}
    (h : scanFraction cs = some (fraction, rest)) :
    scanFraction (cs ++ ds) = some (fraction, rest ++ ds) := by
  unfold scanFraction at h
  split at h
  · simp only at h
    split at h
    · cases h
    · rename_i hne
      cases h
      rw [List.cons_append, scanFraction]
      simp only [takeWhile_isDigit_append hds, dropWhile_isDigit_append hds]
      rw [if_neg hne]
  · rename_i hpoint
    cases h
    unfold scanFraction
    split
    · rename_i heq
      cases cs with
      | nil =>
        rw [List.nil_append] at heq
        exact absurd rfl (hds '.' (by rw [heq, List.head?_cons])).2.1
      | cons c cs => exact absurd (by rw [(List.cons.inj heq).1]) (hpoint cs)
    · rfl

/-- The digits of an exponent end where the text does, as those in front of the point do. -/
theorem scanExponentDigits_append (hds : EndsNumber ds) {negative : Bool}
    {exponent : Option (Bool × List Char)}
    (h : scanExponentDigits negative cs = some (exponent, rest)) :
    scanExponentDigits negative (cs ++ ds) = some (exponent, rest ++ ds) := by
  unfold scanExponentDigits at h ⊢
  simp only [takeWhile_isDigit_append hds, dropWhile_isDigit_append hds] at h ⊢
  split at h
  · cases h
  · rename_i hne
    cases h
    rw [if_neg hne]

/-- An exponent may have a sign, which is looked for before its digits; the cases are those of the
sign. -/
theorem scanExponentSign_append (hds : EndsNumber ds) {exponent : Option (Bool × List Char)}
    (h : scanExponentSign cs = some (exponent, rest)) :
    scanExponentSign (cs ++ ds) = some (exponent, rest ++ ds) := by
  cases cs with
  | nil => cases h
  | cons c cs =>
    unfold scanExponentSign at h
    split at h
    · rename_i heq
      cases heq
      exact scanExponentDigits_append hds h
    · rename_i heq
      cases heq
      exact scanExponentDigits_append hds h
    · rename_i hplus hminus
      unfold scanExponentSign
      split
      · rename_i heq
        exact absurd (by rw [(List.cons.inj heq).1]) (hplus cs)
      · rename_i heq
        exact absurd (by rw [(List.cons.inj heq).1]) (hminus cs)
      · exact scanExponentDigits_append hds h

/-- The exponent of a number, or nothing where there is no `e`; as with the fraction, what stands
behind must not begin with one. -/
theorem scanExponent_append (hds : EndsNumber ds) {exponent : Option (Bool × List Char)}
    (h : scanExponent cs = some (exponent, rest)) :
    scanExponent (cs ++ ds) = some (exponent, rest ++ ds) := by
  unfold scanExponent at h
  split at h
  · exact scanExponentSign_append hds h
  · exact scanExponentSign_append hds h
  · rename_i he hE
    cases h
    unfold scanExponent
    split
    · rename_i heq
      cases cs with
      | nil =>
        rw [List.nil_append] at heq
        exact absurd rfl (hds 'e' (by rw [heq, List.head?_cons])).2.2.1
      | cons c cs => exact absurd (by rw [(List.cons.inj heq).1]) (he cs)
    · rename_i heq
      cases cs with
      | nil =>
        rw [List.nil_append] at heq
        exact absurd rfl (hds 'E' (by rw [heq, List.head?_cons])).2.2.2
      | cons c cs => exact absurd (by rw [(List.cons.inj heq).1]) (hE cs)
    · rfl

/-- A number is its parts one after the other, each of them with all that follows behind it. -/
theorem scanNumber_append (hds : EndsNumber ds) {negative : Bool} {l : Number.Literal}
    (h : scanNumber negative cs = some (l, rest)) :
    scanNumber negative (cs ++ ds) = some (l, rest ++ ds) := by
  simp only [scanNumber, Option.bind_eq_bind, Option.bind_eq_some_iff, Option.pure_def,
    Option.some.injEq, Prod.exists, Prod.mk.injEq] at h ⊢
  obtain ⟨w, cs₁, hw, f, cs₂, hf, e, cs₃, he, rfl, rfl⟩ := h
  exact ⟨w, _, scanWhole_append hds hw, f, _, scanFraction_append hds hf, e, _,
    scanExponent_append hds he, rfl, rfl⟩

/-- Four hexadecimal digits are four characters, whatever follows. -/
theorem hexUnit?_append {n : Nat} (h : hexUnit? cs = some (n, rest)) (ds : List Char) :
    hexUnit? (cs ++ ds) = some (n, rest ++ ds) := by
  unfold hexUnit? at h
  split at h
  · simp only [hexUnit?, List.cons_append, Option.bind_eq_bind, Option.bind_eq_some_iff,
      Option.pure_def, Option.some.injEq, Prod.mk.injEq] at h ⊢
    obtain ⟨a, ha, b, hb, c, hc, d, hd, rfl, rfl⟩ := h
    exact ⟨a, ha, b, hb, c, hc, d, hd, rfl, rfl⟩
  · cases h

/-- One step of the scanner of texts for each way to write a character; the lemmas on whole texts
are inductions over these. -/
theorem scanText_code {n : Nat} (h : hexUnit? cs = some (n, rest)) (fuel : Nat) :
    scanText (fuel + 1) ('\\' :: 'u' :: cs) =
      (scanText fuel rest).map fun r => (.code n :: r.1, r.2) := by
  rw [scanText, h]

/-- A character behind a backslash stands for itself or for a control; the code with four digits is
a case of its own. -/
theorem scanText_escaped {c d : Char} (hc : c ≠ 'u') (h : escaped? c = some d) (fuel : Nat)
    (cs : List Char) :
    scanText (fuel + 1) ('\\' :: c :: cs) =
      (scanText fuel cs).map fun r => (.char d :: r.1, r.2) := by
  rw [scanText]
  · rw [h]
  · exact hc

/-- Any other character stands for itself, unless it is a control. -/
theorem scanText_char {c : Char} (hquote : c ≠ '"') (hescape : c ≠ '\\') (hc : 0x20 ≤ c.toNat)
    (fuel : Nat) (cs : List Char) :
    scanText (fuel + 1) (c :: cs) = (scanText fuel cs).map fun r => (.char c :: r.1, r.2) := by
  rw [scanText]
  · rw [if_neg (by simpa using ⟨hescape, hc⟩)]
  · exact hquote
  · exact fun _ h => absurd h hescape
  · exact fun _ _ h => absurd h hescape

/-- A text literal ends with its closing quote, whatever stands behind.  The fuel may be any that is
as much, for a longer text is scanned with more of it. -/
theorem scanText_append {fuel : Nat} {us : List Unit16} (h : scanText fuel cs = some (us, rest))
    {fuel' : Nat} (hfuel : fuel ≤ fuel') (ds : List Char) :
    scanText fuel' (cs ++ ds) = some (us, rest ++ ds) := by
  fun_induction scanText fuel cs generalizing us rest fuel' with
  | case1 | case2 | case5 | case7 | case8 => cases h
  | case3 fuel cs =>
    obtain ⟨fuel', rfl⟩ := Nat.exists_eq_add_one.mpr (Nat.lt_of_lt_of_le fuel.succ_pos hfuel)
    cases h
    rfl
  | case4 fuel cs n cs' hcode ih =>
    obtain ⟨fuel', rfl⟩ := Nat.exists_eq_add_one.mpr (Nat.lt_of_lt_of_le fuel.succ_pos hfuel)
    obtain ⟨⟨us', rest'⟩, hlater, heq⟩ := Option.map_eq_some_iff.mp h
    cases heq
    rw [List.cons_append, List.cons_append, scanText_code (hexUnit?_append hcode ds),
      ih hlater (Nat.le_of_succ_le_succ hfuel)]
    rfl
  | case6 fuel c cs hc d hescaped ih =>
    obtain ⟨fuel', rfl⟩ := Nat.exists_eq_add_one.mpr (Nat.lt_of_lt_of_le fuel.succ_pos hfuel)
    obtain ⟨⟨us', rest'⟩, hlater, heq⟩ := Option.map_eq_some_iff.mp h
    cases heq
    rw [List.cons_append, List.cons_append, scanText_escaped hc hescaped,
      ih hlater (Nat.le_of_succ_le_succ hfuel)]
    rfl
  | case9 fuel c cs hquote hcode hescape hc ih =>
    obtain ⟨fuel', rfl⟩ := Nat.exists_eq_add_one.mpr (Nat.lt_of_lt_of_le fuel.succ_pos hfuel)
    obtain ⟨⟨us', rest'⟩, hlater, heq⟩ := Option.map_eq_some_iff.mp h
    cases heq
    rw [Bool.or_eq_true, not_or, beq_iff_eq, decide_eq_true_eq, Nat.not_lt] at hc
    rw [List.cons_append, scanText_char hquote hc.1 hc.2, ih hlater (Nat.le_of_succ_le_succ hfuel)]
    rfl

/-! ## Tokens with more behind -/

/-- The token of a number is made of what has been scanned, so nothing behind it takes part. -/
theorem numberToken?_append (hds : EndsNumber ds) {negative : Bool} {t : Token}
    (h : numberToken? negative cs = some (t, rest)) :
    numberToken? negative (cs ++ ds) = some (t, rest ++ ds) := by
  obtain ⟨⟨l, rest'⟩, hscan, heq⟩ := Option.map_eq_some_iff.mp h
  cases heq
  rw [numberToken?, scanNumber_append hds hscan]
  rfl

/-- A number without a sign begins with a digit. -/
theorem exists_digit_of_scanNumber {negative : Bool} {l : Number.Literal}
    (h : scanNumber negative cs = some (l, rest)) : ∃ c cs', cs = c :: cs' ∧ c.isDigit = true := by
  simp only [scanNumber, Option.bind_eq_bind, Option.bind_eq_some_iff, Prod.exists] at h
  obtain ⟨w, cs₁, hw, -⟩ := h
  unfold scanWhole at hw
  split at hw
  · exact ⟨_, _, rfl, rfl⟩
  · simp only at hw
    split at hw
    · cases hw
    · rename_i hne
      cases cs with
      | nil => simp at hne
      | cons c cs =>
        refine ⟨c, cs, rfl, ?_⟩
        by_contra hc
        rw [List.takeWhile_cons_of_neg hc] at hne
        exact hne rfl

/-- A token that begins with a digit is a number. -/
theorem nextToken?_of_isDigit {c : Char} (hc : c.isDigit = true) (cs : List Char) :
    nextToken? (c :: cs) = numberToken? false (c :: cs) := by
  unfold nextToken?
  split
  all_goals first
    | rfl
    | (rename_i heq; cases heq; cases hc)

/-- Nothing of what stands behind a token takes part in it, except for what may go on with a
number. -/
theorem nextToken?_append {t : Token} (h : nextToken? cs = some (t, rest))
    (hds : (∃ n, t = .number n) → EndsNumber ds) :
    nextToken? (cs ++ ds) = some (t, rest ++ ds) := by
  unfold nextToken? at h
  split at h
  case h_7 cs =>
    obtain ⟨⟨us, rest'⟩, hscan, heq⟩ := Option.map_eq_some_iff.mp h
    cases heq
    rw [List.cons_append, nextToken?, scanText_append hscan (by simp)]
    rfl
  case h_8 cs =>
    obtain ⟨⟨l, rest'⟩, hscan, heq⟩ := Option.map_eq_some_iff.mp h
    cases heq
    exact numberToken?_append (hds ⟨_, rfl⟩) h
  case h_12 =>
    obtain ⟨⟨l, rest'⟩, hscan, heq⟩ := Option.map_eq_some_iff.mp h
    obtain ⟨c, cs', rfl, hc⟩ := exists_digit_of_scanNumber hscan
    cases heq
    rw [List.cons_append, nextToken?_of_isDigit hc]
    exact numberToken?_append (hds ⟨_, rfl⟩) h
  all_goals
    cases h
    rfl

/-! ## Every token takes a character

The tokens of a text are found by a recursion with fuel, one unit for each token.  As every token
takes a character at least, the number of characters is always enough.
-/

/-- A text literal has a closing quote, so it takes a character even if it is empty. -/
theorem length_scanText {fuel : Nat} {us : List Unit16}
    (h : scanText fuel cs = some (us, rest)) : rest.length < cs.length := by
  fun_induction scanText fuel cs generalizing us rest with
  | case1 | case2 | case5 | case7 | case8 => cases h
  | case3 fuel cs =>
    cases h
    exact Nat.lt_succ_self _
  | case4 fuel cs n cs' hcode ih =>
    obtain ⟨⟨us', rest'⟩, hlater, heq⟩ := Option.map_eq_some_iff.mp h
    cases heq
    have hrest := ih hlater
    unfold hexUnit? at hcode
    split at hcode
    · simp only [Option.bind_eq_bind, Option.bind_eq_some_iff, Option.pure_def, Option.some.injEq,
        Prod.mk.injEq] at hcode
      obtain ⟨_, -, _, -, _, -, _, -, -, rfl⟩ := hcode
      simp only [List.length_cons]
      omega
    · cases hcode
  | case6 fuel c cs hc d hescaped ih =>
    obtain ⟨⟨us', rest'⟩, hlater, heq⟩ := Option.map_eq_some_iff.mp h
    cases heq
    exact Nat.lt_succ_of_lt (Nat.lt_succ_of_lt (ih hlater))
  | case9 fuel c cs hquote hcode hescape hc ih =>
    obtain ⟨⟨us', rest'⟩, hlater, heq⟩ := Option.map_eq_some_iff.mp h
    cases heq
    exact Nat.lt_succ_of_lt (ih hlater)

/-- A number has a digit in front of its point at least. -/
theorem length_scanWhole {w : List Char} (h : scanWhole cs = some (w, rest)) :
    rest.length < cs.length := by
  unfold scanWhole at h
  split at h
  · split at h
    · split at h
      · cases h
      · cases h
        exact Nat.lt_succ_self _
    · cases h
      exact Nat.lt_succ_self _
  · simp only at h
    split at h
    · cases h
    · rename_i hne
      cases h
      have hsplit := congrArg List.length
        (List.takeWhile_append_dropWhile (p := Char.isDigit) (l := cs))
      rw [List.isEmpty_iff, ← ne_eq, ← List.length_pos_iff] at hne
      rw [List.length_append] at hsplit
      omega

/-- A number may have no fraction, so nothing need be taken here, nor for the exponent; the whole
part takes a digit. -/
theorem length_scanFraction {fraction : Option (List Char)}
    (h : scanFraction cs = some (fraction, rest)) : rest.length ≤ cs.length := by
  unfold scanFraction at h
  split at h
  · simp only at h
    split at h
    · cases h
    · cases h
      exact Nat.le_succ_of_le (List.length_dropWhile_le _ _)
  · cases h
    exact Nat.le_refl _

theorem length_scanExponentDigits {negative : Bool} {exponent : Option (Bool × List Char)}
    (h : scanExponentDigits negative cs = some (exponent, rest)) : rest.length ≤ cs.length := by
  unfold scanExponentDigits at h
  simp only at h
  split at h
  · cases h
  · cases h
    exact List.length_dropWhile_le _ _

theorem length_scanExponent {exponent : Option (Bool × List Char)}
    (h : scanExponent cs = some (exponent, rest)) : rest.length ≤ cs.length := by
  have hsign : ∀ cs, scanExponentSign cs = some (exponent, rest) → rest.length ≤ cs.length := by
    intro cs h
    unfold scanExponentSign at h
    split at h
    · exact Nat.le_succ_of_le (length_scanExponentDigits h)
    · exact Nat.le_succ_of_le (length_scanExponentDigits h)
    · exact length_scanExponentDigits h
  unfold scanExponent at h
  split at h
  · exact Nat.le_succ_of_le (hsign _ h)
  · exact Nat.le_succ_of_le (hsign _ h)
  · cases h
    exact Nat.le_refl _

/-- A number takes a character, since its first part does. -/
theorem length_numberToken? {negative : Bool} {t : Token}
    (h : numberToken? negative cs = some (t, rest)) : rest.length < cs.length := by
  obtain ⟨⟨l, rest'⟩, hscan, heq⟩ := Option.map_eq_some_iff.mp h
  cases heq
  simp only [scanNumber, Option.bind_eq_bind, Option.bind_eq_some_iff, Option.pure_def,
    Option.some.injEq, Prod.exists, Prod.mk.injEq] at hscan
  obtain ⟨w, cs₁, hw, f, cs₂, hf, e, cs₃, he, -, rfl⟩ := hscan
  have hwhole := length_scanWhole hw
  have hfraction := length_scanFraction hf
  have hexponent := length_scanExponent he
  dsimp only
  omega

/-- So does every token, whatever kind it is of. -/
theorem length_nextToken? {t : Token} (h : nextToken? cs = some (t, rest)) :
    rest.length < cs.length := by
  unfold nextToken? at h
  split at h
  case h_7 cs =>
    obtain ⟨⟨us, rest'⟩, hscan, heq⟩ := Option.map_eq_some_iff.mp h
    cases heq
    exact Nat.lt_succ_of_lt (length_scanText hscan)
  case h_8 cs => exact Nat.lt_succ_of_lt (length_numberToken? h)
  case h_12 => exact length_numberToken? h
  all_goals
    cases h
    simp only [List.length_cons]
    omega

end Append

/-! ## Splitting a text into tokens -/

theorem nextToken?_space {c : Char} (hc : isSpace c = true) (cs : List Char) :
    nextToken? (c :: cs) = none := by
  simp only [isSpace, Bool.or_eq_true, beq_iff_eq] at hc
  obtain ((rfl | rfl) | rfl) | rfl := hc <;> rfl

theorem dropWhile_isSpace_of_nextToken? {cs rest : List Char} {t : Token}
    (h : nextToken? cs = some (t, rest)) : cs.dropWhile isSpace = cs := by
  cases cs with
  | nil => rfl
  | cons c cs =>
    refine List.dropWhile_cons_of_neg fun hc => ?_
    rw [nextToken?_space hc] at h
    cases h

/-- The tokens of characters.  There are no more tokens than characters, so this is as much fuel as
can be used. -/
def lex (cs : List Char) : List Token := tokenizeChars cs.length cs

theorem tokenizeChars_nil (fuel : Nat) : tokenizeChars fuel [] = [] := by
  cases fuel <;> rfl

/-- There are no more tokens than characters: with any fuel that is enough the tokens are the
same. -/
theorem tokenizeChars_eq_lex {fuel : Nat} {cs : List Char} (h : cs.length ≤ fuel) :
    tokenizeChars fuel cs = lex cs := by
  -- Every token leaves fewer characters, so that neither of the two fuels runs out first.
  have hany : ∀ (m n : Nat) (cs : List Char), cs.length ≤ m → cs.length ≤ n →
      tokenizeChars m cs = tokenizeChars n cs := by
    intro m
    induction m with
    | zero =>
      intro n cs hm _
      rw [List.eq_nil_of_length_eq_zero (Nat.le_zero.mp hm), tokenizeChars_nil, tokenizeChars_nil]
    | succ m ih =>
      intro n cs hm hn
      cases n with
      | zero =>
        rw [List.eq_nil_of_length_eq_zero (Nat.le_zero.mp hn), tokenizeChars_nil, tokenizeChars_nil]
      | succ n =>
        have hdrop := List.length_dropWhile_le isSpace cs
        simp only [tokenizeChars]
        split
        · rfl
        · split
          · rename_i hnext
            have hrest := length_nextToken? hnext
            rw [ih n _ (by omega) (by omega)]
          · rfl
  exact hany _ _ cs h (Nat.le_refl _)

/-- Of a text that begins with a token, the others are those of its rest. -/
theorem lex_of_nextToken? {cs rest : List Char} {t : Token}
    (h : nextToken? (cs.dropWhile isSpace) = some (t, rest)) : lex cs = t :: lex rest := by
  have hrest := length_nextToken? h
  have hdrop := List.length_dropWhile_le isSpace cs
  obtain ⟨n, hn⟩ := Nat.exists_eq_add_one.mpr (show 0 < cs.length by omega)
  rw [lex, hn, tokenizeChars]
  split
  · rename_i hnil
    rw [hnil] at h
    cases h
  · rw [h]
    dsimp only
    rw [tokenizeChars_eq_lex (by omega)]

/-- Where no token begins the text is broken, and nothing behind the place is read. -/
theorem lex_of_broken {cs : List Char} (hne : cs.dropWhile isSpace ≠ [])
    (h : nextToken? (cs.dropWhile isSpace) = none) : lex cs = [.broken] := by
  have hdrop := List.length_dropWhile_le isSpace cs
  have hpos := List.length_pos_iff.mpr hne
  obtain ⟨n, hn⟩ := Nat.exists_eq_add_one.mpr (show 0 < cs.length by omega)
  rw [lex, hn, tokenizeChars]
  split
  · rename_i hnil
    exact absurd hnil hne
  · rw [h]

/-- Blanks in front are passed over. -/
theorem lex_append_of_isSpace {bs : List Char} (hbs : ∀ c ∈ bs, isSpace c = true)
    (cs : List Char) : lex (bs ++ cs) = lex cs := by
  rw [← tokenizeChars_eq_lex (Nat.le_refl (bs ++ cs).length),
    ← tokenizeChars_eq_lex (show cs.length ≤ (bs ++ cs).length by simp)]
  cases (bs ++ cs).length with
  | zero => rfl
  | succ n => simp only [tokenizeChars, List.dropWhile_append_of_pos hbs]

/-- The tokens of a text and of another one behind it, which does not go on with a number.  The
first one must be whole, for a broken text swallows all that follows.  The induction is on the
characters of the first text that are left, since every token takes some of them. -/
theorem lex_append {cs ds : List Char} (h : .broken ∉ lex cs) (hds : EndsNumber ds) :
    lex (cs ++ ds) = lex cs ++ lex ds := by
  -- On the number of characters, of which a token takes some, though not only the first one.
  induction hn : cs.length using Nat.strongRecOn generalizing cs with
  | ind n ih =>
    by_cases hblank : cs.dropWhile isSpace = []
    · have hall := List.dropWhile_eq_nil_iff.mp hblank
      have hnone : lex cs = [] := by
        have hlex := lex_append_of_isSpace hall []
        rwa [List.append_nil] at hlex
      rw [hnone, List.nil_append, lex_append_of_isSpace hall]
    · cases hnext : nextToken? (cs.dropWhile isSpace) with
      | none => exact absurd (by rw [lex_of_broken hblank hnext]; exact List.mem_cons_self) h
      | some p =>
        obtain ⟨t, rest⟩ := p
        have hlex := lex_of_nextToken? hnext
        rw [hlex, List.mem_cons, not_or] at h
        have hrest := length_nextToken? hnext
        have hdrop := List.length_dropWhile_le isSpace cs
        have hmore : nextToken? ((cs ++ ds).dropWhile isSpace) = some (t, rest ++ ds) := by
          rw [List.dropWhile_append, if_neg (by rwa [List.isEmpty_iff])]
          exact nextToken?_append hnext fun _ => hds
        rw [lex_of_nextToken? hmore, hlex, ih rest.length (by omega) h.2 rfl, List.cons_append]

theorem tokenize_eq_lex (s : String) : tokenize s = lex s.toList := rfl

end Marketplace.Json
