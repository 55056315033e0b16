import Marketplace.Proofs.Json.Lexing
import Marketplace.Proofs.Json.Reading
import Marketplace.Proofs.Text.Digits
set_option autoImplicit false

/-!
# Tokens and their spellings

A text that has been made of tokens is split into these again.  Texts of any characters and integers
of 64 bits are read back from their spellings (`Token.isSpelled_text`, `Token.isSpelled_int`), and
so are the tokens of every value that is made of them (`Value.tokenize_render`).
-/

namespace Marketplace.Json

/-! ## Spelled tokens -/

/-- The token is read back from its spelling.  Fractions are not among the tokens for which this is
shown, for none of the texts that are written here has any. -/
def Token.IsSpelled (t : Token) : Prop := nextToken? t.spell = some (t, [])

/-- What stands behind each number of a list of tokens does not go on with it.  Numbers next to each
other would run together, all other tokens may stand side by side. -/
def Separate : List Token → Prop
  | [] => True
  | t :: ts => ((∃ n, t = .number n) → EndsNumber (ts.flatMap Token.spell)) ∧ Separate ts

/-- Tokens that are kept apart are read back.  The induction is on their list; of each token only
that it is spelled is used. -/
theorem tokenize_spellTokens {ts : List Token} (hts : ∀ t ∈ ts, t.IsSpelled) (h : Separate ts) :
    tokenize (spellTokens ts) = ts := by
  rw [tokenize_eq_lex, spellTokens, String.toList_ofList]
  induction ts with
  | nil => rfl
  | cons t ts ih =>
    have hnext : nextToken? (t.spell ++ ts.flatMap Token.spell) =
        some (t, ts.flatMap Token.spell) :=
      nextToken?_append (hts t List.mem_cons_self) h.1
    rw [← dropWhile_isSpace_of_nextToken? hnext] at hnext
    rw [List.flatMap_cons, lex_of_nextToken? hnext,
      ih (fun u hu => hts u (List.mem_cons_of_mem t hu)) h.2]

/-! ## Texts -/

/-- A character of a text literal is read as one unit, which stands for the character.  Quotes,
escapes and control characters are spelled in ways of their own, so the cases are those of the
speller. -/
theorem exists_unit_of_spellChar (c : Char) : ∃ u : Unit16,
    (∀ fuel cs, scanText (fuel + 1) (spellChar c ++ cs) =
      (scanText fuel cs).map fun r => (u :: r.1, r.2)) ∧
    ∀ us, unitsText? (u :: us) = (unitsText? us).map (c :: ·) := by
  have hescaped {d : Char} (hd : d ≠ 'u') (h : escaped? d = some c)
      (hspell : spellChar c = ['\\', d]) :
      ∃ u : Unit16, (∀ fuel cs, scanText (fuel + 1) (spellChar c ++ cs) =
        (scanText fuel cs).map fun r => (u :: r.1, r.2)) ∧
      ∀ us, unitsText? (u :: us) = (unitsText? us).map (c :: ·) := by
    refine ⟨.char c, fun fuel cs => ?_, fun us => rfl⟩
    rw [hspell]
    exact scanText_escaped hd h fuel cs
  -- Seven characters have an escape of one letter, other controls one of four digits, and what is
  -- left stands for itself.
  by_cases hquote : c = '"'
  · exact hescaped (d := '"') (by decide) (by rw [hquote]; rfl) (by rw [hquote]; rfl)
  by_cases hescape : c = '\\'
  · exact hescaped (d := '\\') (by decide) (by rw [hescape]; rfl) (by rw [hescape]; rfl)
  by_cases hline : c = '\n'
  · exact hescaped (d := 'n') (by decide) (by rw [hline]; rfl) (by rw [hline]; rfl)
  by_cases hreturn : c = '\r'
  · exact hescaped (d := 'r') (by decide) (by rw [hreturn]; rfl) (by rw [hreturn]; rfl)
  by_cases htab : c = '\t'
  · exact hescaped (d := 't') (by decide) (by rw [htab]; rfl) (by rw [htab]; rfl)
  by_cases hback : c = '\x08'
  · exact hescaped (d := 'b') (by decide) (by rw [hback]; rfl) (by rw [hback]; rfl)
  by_cases hfeed : c = '\x0c'
  · exact hescaped (d := 'f') (by decide) (by rw [hfeed]; rfl) (by rw [hfeed]; rfl)
  by_cases hcontrol : c.toNat < 0x20
  · have hhex : ∀ n < 0x20, hexUnit? (hexQuad n) = some (n, []) := by decide
    have hspell : spellChar c = '\\' :: 'u' :: hexQuad c.toNat := by
      simp [spellChar, hquote, hescape, hline, hreturn, htab, hback, hfeed, hcontrol]
    refine ⟨.code c.toNat, fun fuel cs => ?_, fun us => ?_⟩
    · rw [hspell]
      exact scanText_code (hexUnit?_append (hhex _ hcontrol) cs) fuel
    · have hlow : isLowSurrogate c.toNat = false := by simp [isLowSurrogate]; omega
      have hhigh : isHighSurrogate c.toNat = false := by simp [isHighSurrogate]; omega
      rw [unitsText?.eq_def]
      simp only [hlow, hhigh, Bool.false_eq_true, if_false, Char.ofNat_toNat]
  · have hspell : spellChar c = [c] := by
      simp [spellChar, hquote, hescape, hline, hreturn, htab, hback, hfeed, hcontrol]
    refine ⟨.char c, fun fuel cs => ?_, fun us => rfl⟩
    rw [hspell]
    exact scanText_char hquote hescape (Nat.not_lt.mp hcontrol) fuel cs

/-- There are as many units as characters, and no fewer characters in the spelling, so the fuel that
the spelling gives is enough. -/
theorem length_le_spellChars (cs : List Char) : cs.length ≤ (cs.flatMap spellChar).length := by
  induction cs with
  | nil => exact Nat.le_refl 0
  | cons c cs ih =>
    have hone : 0 < (spellChar c).length := by
      unfold spellChar
      split_ifs <;> exact Nat.succ_pos _
    rw [List.flatMap_cons, List.length_append, List.length_cons]
    omega

/-- The characters of a text literal are read back. -/
theorem scanText_spellChars (cs rest : List Char) :
    ∃ us, scanText (cs.length + 1) (cs.flatMap spellChar ++ '"' :: rest) = some (us, rest) ∧
      unitsText? us = some cs := by
  induction cs with
  | nil => exact ⟨[], rfl, rfl⟩
  | cons c cs ih =>
    obtain ⟨us, hscan, hunits⟩ := ih
    obtain ⟨u, hu, htext⟩ := exists_unit_of_spellChar c
    refine ⟨u :: us, ?_, ?_⟩
    · rw [List.flatMap_cons, List.append_assoc, List.length_cons, hu, hscan]
      rfl
    · rw [htext, hunits]
      rfl

/-- A text is read back from its literal, whatever its characters. -/
theorem Token.isSpelled_text (s : String) : (Token.text (some s)).IsSpelled := by
  obtain ⟨us, hscan, hunits⟩ := scanText_spellChars s.toList []
  have hlong := length_le_spellChars s.toList
  have hfuel : s.toList.length + 1 ≤ (s.toList.flatMap spellChar ++ ['"']).length + 1 := by
    rw [List.length_append]
    omega
  have hscan' := scanText_append hscan hfuel []
  rw [List.append_nil] at hscan'
  unfold Token.IsSpelled Token.spell spellText nextToken?
  simp only [hscan', List.append_nil, Option.map_some, hunits, String.ofList_toList]

/-! ## Integers -/

namespace Number

/-- Digits that stay within the largest significand are taken one by one, and none is left over. -/
theorem takeInteger_eq {n : Nat} {cs : List Char} (h : Text.appendDigits n cs ≤ maxSignificand) :
    takeInteger n cs = (Text.appendDigits n cs, 0, false) := by
  induction cs generalizing n with
  | nil => rfl
  | cons c cs ih =>
    have hgrow := Text.le_appendDigits (10 * n + (c.toNat - '0'.toNat)) cs
    have hfit : 10 * n + (c.toNat - '0'.toNat) ≤ maxSignificand := Nat.le_trans hgrow h
    simp only [takeInteger, hfit, if_true]
    exact ih h

theorem ofLiteral_toDigits {m : Nat} (h : m ≤ maxSignificand) (negative : Bool) :
    ofLiteral ⟨negative, Nat.toDigits 10 m, none, none⟩ = some (ofInteger negative m) := by
  have hvalue : Text.appendDigits 0 (Nat.toDigits 10 m) = m := Text.digitsValue_toDigits m
  have htake := @takeInteger_eq 0 (Nat.toDigits 10 m) (by rwa [hvalue])
  rw [hvalue] at htake
  simp [ofLiteral, htake]

end Number

/-- The decimal digits of a number have no zero in front, so they are the whole part of a
literal. -/
theorem scanNumber_toDigits (negative : Bool) (m : Nat) :
    scanNumber negative (Nat.toDigits 10 m) =
      some (⟨negative, Nat.toDigits 10 m, none, none⟩, []) := by
  have hwhole : scanWhole (Nat.toDigits 10 m) = some (Nat.toDigits 10 m, []) := by
    unfold scanWhole
    split
    · rename_i cs heq
      obtain ⟨-, rfl⟩ := Text.toDigits_eq_zero_cons heq
      rw [heq]
    · have hall := List.all_eq_true.mp (Text.all_isDigit_toDigits m)
      have htake : (Nat.toDigits 10 m).takeWhile Char.isDigit = Nat.toDigits 10 m :=
        List.takeWhile_eq_self_iff.mpr hall
      have hdrop : (Nat.toDigits 10 m).dropWhile Char.isDigit = [] :=
        List.dropWhile_eq_nil_iff.mpr hall
      simp [htake, hdrop, Nat.toDigits_ne_nil]
  simp [scanNumber, hwhole, scanFraction, scanExponent]

/-- An integer that 64 bits hold, with a sign or without one, is read back from its text. -/
theorem Token.isSpelled_int {n : Int} (hlow : -2 ^ 63 ≤ n) (hhigh : n < 2 ^ 64) :
    (Token.number (some (.int n))).IsSpelled := by
  have hspell : (Token.number (some (.int n))).spell = (toString n).toList := rfl
  unfold Token.IsSpelled
  rw [hspell]
  rcases Int.lt_or_le n 0 with hn | hn
  · obtain ⟨m, rfl⟩ := Int.exists_eq_neg_ofNat (Int.le_of_lt hn)
    have hfit : m ≤ Number.maxSignificand := by
      unfold Number.maxSignificand
      omega
    have hinteger : Number.ofInteger true m = .int (-(m : Int)) := by
      rw [Number.ofInteger, if_pos rfl, if_neg]
      rw [Bool.or_eq_true, beq_iff_eq, decide_eq_true_eq, Nat.pow_eq]
      omega
    rw [Text.toList_toString_neg (by omega), nextToken?, numberToken?, scanNumber_toDigits,
      Option.map_some, Number.ofLiteral_toDigits hfit, hinteger]
  · obtain ⟨m, rfl⟩ := Int.eq_ofNat_of_zero_le hn
    have hfit : m ≤ Number.maxSignificand := by
      unfold Number.maxSignificand
      omega
    obtain ⟨c, cs, hcs, hc⟩ := exists_digit_of_scanNumber (scanNumber_toDigits false m)
    rw [Text.toList_toString_natCast, hcs, nextToken?_of_isDigit hc, ← hcs, numberToken?,
      scanNumber_toDigits, Option.map_some, Number.ofLiteral_toDigits hfit]
    rfl

/-! ## Values

The tokens of a value are spelled if its scalars are, and they are kept apart whatever they are:
between two numbers there is always a comma, a colon or a bracket.
-/

namespace Value

/-- Each token of the value is read back from its spelling. -/
def IsSpelled (v : Value) : Prop := ∀ t ∈ v.tokens, t.IsSpelled

theorem mem_itemRun {first : Bool} {vs : List Value} {t : Token} (ht : t ∈ itemRun first vs) :
    t = .comma ∨ ∃ v ∈ vs, t ∈ v.tokens := by
  induction vs generalizing first with
  | nil => cases ht
  | cons v vs ih =>
    rw [itemRun, List.mem_append, List.mem_append] at ht
    rcases ht with hlead | hv | hvs
    · cases first with
      | true => cases hlead
      | false => exact Or.inl (List.mem_singleton.mp hlead)
    · exact Or.inr ⟨v, List.mem_cons_self, hv⟩
    · exact (ih hvs).imp_right fun ⟨w, hw, htw⟩ => ⟨w, List.mem_cons_of_mem v hw, htw⟩

theorem mem_memberRun {first : Bool} {ms : List (String × Value)} {t : Token}
    (ht : t ∈ memberRun first ms) :
    t = .comma ∨ t = .colon ∨ (∃ s, t = .text (some s)) ∨ ∃ m ∈ ms, t ∈ m.2.tokens := by
  induction ms generalizing first with
  | nil => cases ht
  | cons m ms ih =>
    obtain ⟨k, v⟩ := m
    rw [memberRun, List.mem_append, List.mem_cons, List.mem_cons, List.mem_append] at ht
    rcases ht with hlead | rfl | rfl | hv | hms
    · cases first with
      | true => cases hlead
      | false => exact Or.inl (List.mem_singleton.mp hlead)
    · exact Or.inr (Or.inr (Or.inl ⟨k, rfl⟩))
    · exact Or.inr (Or.inl rfl)
    · exact Or.inr (Or.inr (Or.inr ⟨(k, v), List.mem_cons_self, hv⟩))
    · exact (ih hms).imp_right fun h => h.imp_right fun h => h.imp_right fun ⟨n, hn, htn⟩ =>
        ⟨n, List.mem_cons_of_mem (k, v) hn, htn⟩

theorem isSpelled_null : null.IsSpelled := by
  intro t ht
  rw [List.mem_singleton.mp ht]
  rfl

theorem isSpelled_text (s : String) : (text s).IsSpelled := by
  intro t ht
  rw [List.mem_singleton.mp ht]
  exact Token.isSpelled_text s

theorem isSpelled_int {n : Int} (hlow : -2 ^ 63 ≤ n) (hhigh : n < 2 ^ 64) : (int n).IsSpelled := by
  intro t ht
  rw [List.mem_singleton.mp ht]
  exact Token.isSpelled_int hlow hhigh

theorem isSpelled_array {vs : List Value} (h : ∀ v ∈ vs, v.IsSpelled) : (array vs).IsSpelled := by
  intro t ht
  rw [tokens_array, List.mem_cons, List.mem_append, List.mem_singleton] at ht
  rcases ht with rfl | hvs | rfl
  · rfl
  · rcases mem_itemRun hvs with rfl | ⟨v, hv, ht⟩
    · rfl
    · exact h v hv t ht
  · rfl

theorem isSpelled_object {ms : List (String × Value)} (h : ∀ m ∈ ms, m.2.IsSpelled) :
    (object ms).IsSpelled := by
  intro t ht
  rw [tokens_object, List.mem_cons, List.mem_append, List.mem_singleton] at ht
  rcases ht with rfl | hms | rfl
  · rfl
  · rcases mem_memberRun hms with rfl | rfl | ⟨s, rfl⟩ | ⟨m, hm, ht⟩
    · rfl
    · rfl
    · exact Token.isSpelled_text s
    · exact h m hm t ht
  · rfl

mutual

/-- In a value, no number is run on.  The statement is on what stands behind the value as well, for
the items of an array stand in front of each other. -/
theorem separate_tokens (v : Value) {ts : List Token} (hts : EndsNumber (ts.flatMap Token.spell))
    (h : Separate ts) : Separate (v.tokens ++ ts) := by
  cases v with
  | number n => exact ⟨fun _ => hts, h⟩
  | array vs =>
    rw [tokens_array, List.cons_append, List.append_assoc]
    exact ⟨nofun, separate_itemRun vs true ⟨nofun, h⟩⟩
  | object ms =>
    rw [tokens_object, List.cons_append, List.append_assoc]
    exact ⟨nofun, separate_memberRun ms true ⟨nofun, h⟩⟩
  | _ => exact ⟨nofun, h⟩

theorem separate_itemRun (vs : List Value) (first : Bool) {ts : List Token}
    (h : Separate (.closeArray :: ts)) :
    Separate (itemRun first vs ++ .closeArray :: ts) := by
  cases vs with
  | nil => exact h
  | cons v vs =>
    have hend : EndsNumber ((itemRun false vs ++ .closeArray :: ts).flatMap Token.spell) := by
      cases vs <;> exact endsNumber_cons rfl (by decide) (by decide) (by decide)
    have hv := separate_tokens v hend (separate_itemRun vs false h)
    rw [itemRun, List.append_assoc, List.append_assoc]
    cases first with
    | true => exact hv
    | false => exact ⟨nofun, hv⟩

theorem separate_memberRun (ms : List (String × Value)) (first : Bool) {ts : List Token}
    (h : Separate (.closeObject :: ts)) :
    Separate (memberRun first ms ++ .closeObject :: ts) := by
  cases ms with
  | nil => exact h
  | cons m ms =>
    have hend : EndsNumber ((memberRun false ms ++ .closeObject :: ts).flatMap Token.spell) := by
      cases ms <;> exact endsNumber_cons rfl (by decide) (by decide) (by decide)
    have hv := separate_tokens m.2 hend (separate_memberRun ms false h)
    rw [memberRun, List.append_assoc, List.cons_append, List.cons_append, List.append_assoc]
    cases first with
    | true => exact ⟨nofun, nofun, hv⟩
    | false => exact ⟨nofun, nofun, nofun, hv⟩

end

/-- The tokens of a text that has been made of a value are those of the value. -/
theorem tokenize_render {v : Value} (h : v.IsSpelled) : tokenize v.render = v.tokens := by
  have hseparate : Separate (v.tokens ++ []) := v.separate_tokens nofun trivial
  rw [List.append_nil] at hseparate
  exact tokenize_spellTokens h hseparate

end Value

end Marketplace.Json
