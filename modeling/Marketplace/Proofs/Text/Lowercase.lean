import Mathlib.Data.List.Infix
import Marketplace.Text.Lowercase
set_option autoImplicit false

/-!
# Lower case in parts of a text

All characters but one are lower-cased by themselves, so a part of a text is lower-cased as it is
alone, except that the form of a capital sigma depends on its neighbours.  `Settled` says of
characters that they decide on the form of each sigma among them.  Such characters are found in
lower case wherever they occur (`Settled.readsAlike`, `occursIn_of_readsAlike`), and any others
occur in some text in which they are not found (`exists_not_occursIn`).
-/

namespace Marketplace.Text

/-! ## Search -/

theorem occursIn_iff {pattern text : List Char} :
    occursIn pattern text = true ↔ pattern <:+: text := by
  induction text with
  | nil => simp [occursIn]
  | cons c text ih =>
    rw [occursIn, Bool.or_eq_true, List.isPrefixOf_iff_prefix, ih, List.infix_cons_iff]

/-! ## Neighbours -/

/-- The nearest character that is not passed over. -/
def neighbour? (cs : List Char) : Option Char := cs.find? fun c => !isCaseIgnorable c

theorem meetsCased_eq (cs : List Char) : meetsCased cs = (neighbour? cs).any isCased := by
  induction cs with
  | nil => rfl
  | cons c cs ih =>
    unfold meetsCased neighbour? at ih ⊢
    rw [List.dropWhile_cons, List.find?_cons]
    cases isCaseIgnorable c with
    | true => exact ih
    | false => rfl

theorem neighbour?_append (xs ys : List Char) :
    neighbour? (xs ++ ys) = (neighbour? xs).or (neighbour? ys) :=
  List.find?_append

/-- Where there is no neighbour, what stands behind counts alone. -/
theorem meetsCased_append_of_none {xs : List Char} (h : neighbour? xs = none) (ys : List Char) :
    meetsCased (xs ++ ys) = meetsCased ys := by
  rw [meetsCased_eq, meetsCased_eq, neighbour?_append, h, Option.none_or]

/-- Where there is a neighbour, what stands behind it does not count. -/
theorem meetsCased_append {xs : List Char} {c : Char} (h : neighbour? xs = some c)
    (ys : List Char) : meetsCased (xs ++ ys) = meetsCased xs := by
  rw [meetsCased_eq, meetsCased_eq, neighbour?_append, h, Option.some_or]

theorem exists_neighbour {xs : List Char} (h : meetsCased xs = true) :
    ∃ c, neighbour? xs = some c := by
  rw [meetsCased_eq, Option.any_eq_true] at h
  obtain ⟨c, hc, -⟩ := h
  exact ⟨c, hc⟩

/-- A letter with a case is met also when there is more behind. -/
theorem meetsCased_append_of_meets {xs : List Char} (h : meetsCased xs = true) (ys : List Char) :
    meetsCased (xs ++ ys) = true := by
  obtain ⟨c, hc⟩ := exists_neighbour h
  rw [meetsCased_append hc, h]

/-- A capital sigma between these characters, the former nearest first, ends a word. -/
def isFinal (before after : List Char) : Bool := meetsCased before && !meetsCased after

theorem isFinal_append {before after : List Char} (outer : List Char)
    (h : isFinal before after = true) : isFinal (before ++ outer) after = true := by
  rw [isFinal, Bool.and_eq_true] at h ⊢
  exact ⟨meetsCased_append_of_meets h.1 outer, h.2⟩

theorem isFinal_of_append {before after outer : List Char}
    (h : isFinal before (after ++ outer) = true) : isFinal before after = true := by
  rw [isFinal, Bool.and_eq_true, Bool.not_eq_true'] at h ⊢
  refine ⟨h.1, ?_⟩
  cases hafter : meetsCased after with
  | false => rfl
  | true => rw [meetsCased_append_of_meets hafter] at h; exact h.2

/-! ## Parts of a text -/

/-- Lower-cases characters between what stands before them, nearest first, and after them. -/
def lowerWithin (before : List Char) : List Char → List Char → List Char
  | [], _ => []
  | c :: cs, after => lowerBetween before c (cs ++ after) ++ lowerWithin (c :: before) cs after

/-- A text is lower-cased part by part. -/
theorem lowerAfter_append (before xs ys : List Char) :
    lowerAfter before (xs ++ ys) =
      lowerWithin before xs ys ++ lowerAfter (xs.reverse ++ before) ys := by
  induction xs generalizing before with
  | nil => rfl
  | cons x xs ih =>
    rw [List.cons_append, lowerAfter, ih, lowerWithin, List.reverse_cons, List.append_assoc,
      List.append_assoc, List.singleton_append]

theorem lowerWithin_append (before xs ys after : List Char) :
    lowerWithin before (xs ++ ys) after =
      lowerWithin before xs (ys ++ after) ++ lowerWithin (xs.reverse ++ before) ys after := by
  induction xs generalizing before with
  | nil => rfl
  | cons x xs ih =>
    rw [List.cons_append, lowerWithin, ih, lowerWithin, List.reverse_cons, List.append_assoc,
      List.append_assoc, List.append_assoc, List.singleton_append]

theorem lowerAfter_eq (before cs : List Char) :
    lowerAfter before cs = lowerWithin before cs [] := by
  have hwhole := lowerAfter_append before cs []
  rwa [List.append_nil, lowerAfter, List.append_nil] at hwhole

theorem lowerBetween_sigma (before after : List Char) :
    lowerBetween before 'Σ' after = [if isFinal before after then 'ς' else 'σ'] := by
  rw [lowerBetween, if_pos (beq_self_eq_true _), isFinal, apply_ite (fun c : Char => [c])]

/-- Only a capital sigma depends on its neighbours, and that only by whether it ends a word. -/
theorem lowerBetween_congr {before before' after after' : List Char} {c : Char}
    (h : c = 'Σ' → isFinal before after = isFinal before' after') :
    lowerBetween before c after = lowerBetween before' c after' := by
  by_cases hc : c = 'Σ'
  · subst hc
    rw [lowerBetween_sigma, lowerBetween_sigma, h rfl]
  · have hother : (c == 'Σ') = false := beq_eq_false_iff_ne.mpr hc
    simp only [lowerBetween, hother, Bool.false_eq_true, if_false]

/-! ## Sigmas -/

/-- Each capital sigma in what follows `before` stands between such characters. -/
def AtSigmas (P : List Char → List Char → Prop) (before : List Char) : List Char → Prop
  | [] => True
  | c :: cs => (c = 'Σ' → P before cs) ∧ AtSigmas P (c :: before) cs

namespace AtSigmas

instance decidable (P : List Char → List Char → Prop) [∀ b a, Decidable (P b a)] :
    (before cs : List Char) → Decidable (AtSigmas P before cs)
  | _, [] => .isTrue trivial
  | before, c :: cs =>
    have := decidable P (c :: before) cs
    inferInstanceAs (Decidable ((c = 'Σ' → P before cs) ∧ AtSigmas P (c :: before) cs))

variable {P Q : List Char → List Char → Prop} {before cs : List Char}

theorem imp (h : AtSigmas P before cs) (hPQ : ∀ b a, P b a → Q b a) : AtSigmas Q before cs := by
  induction cs generalizing before with
  | nil => trivial
  | cons c cs ih => exact ⟨fun hc => hPQ _ _ (h.1 hc), ih h.2⟩

theorem exists_of_not (h : ¬AtSigmas P before cs) :
    ∃ xs ys, cs = xs ++ 'Σ' :: ys ∧ ¬P (xs.reverse ++ before) ys := by
  induction cs generalizing before with
  | nil => exact absurd trivial h
  | cons c cs ih =>
    by_cases hhere : c = 'Σ' → P before cs
    · obtain ⟨xs, ys, rfl, hP⟩ := ih fun hrest => h ⟨hhere, hrest⟩
      refine ⟨c :: xs, ys, rfl, ?_⟩
      rwa [List.reverse_cons, List.append_assoc, List.singleton_append]
    · rw [Classical.not_imp] at hhere
      obtain ⟨rfl, hP⟩ := hhere
      exact ⟨[], cs, rfl, hP⟩

end AtSigmas

/-- Between the outer characters each capital sigma has the form that it has without them. -/
structure ReadsAlike (before cs after : List Char) : Prop where
  sigmas : AtSigmas (fun b a => isFinal (b ++ before) (a ++ after) = isFinal b a) [] cs

/-- The characters next to a sigma decide on its form, whatever stands around them: there is a
neighbour on the left, unless a letter with a case follows, and one on the right, unless no such
letter stands on the left. -/
def SettledBetween (before after : List Char) : Prop :=
  (neighbour? before = none → meetsCased after = true) ∧
    (neighbour? after = none → meetsCased before = false)

instance (before after : List Char) : Decidable (SettledBetween before after) :=
  inferInstanceAs (Decidable (_ ∧ _))

/-- The form of each capital sigma among the characters is decided by the others. -/
def Settled (cs : List Char) : Prop := AtSigmas SettledBetween [] cs

instance (cs : List Char) : Decidable (Settled cs) :=
  inferInstanceAs (Decidable (AtSigmas _ _ _))

theorem SettledBetween.isFinal_append {before after : List Char} (h : SettledBetween before after)
    (outer outer' : List Char) :
    isFinal (before ++ outer) (after ++ outer') = isFinal before after := by
  unfold isFinal
  cases hbefore : neighbour? before with
  | none =>
    have hafter := h.1 hbefore
    obtain ⟨c, hc⟩ := exists_neighbour hafter
    rw [meetsCased_append hc, hafter, Bool.not_true, Bool.and_false, Bool.and_false]
  | some b =>
    rw [meetsCased_append hbefore]
    cases hafter : neighbour? after with
    | none => rw [h.2 hafter, Bool.false_and, Bool.false_and]
    | some a => rw [meetsCased_append hafter]

theorem Settled.readsAlike {cs : List Char} (h : Settled cs) (before after : List Char) :
    ReadsAlike before cs after where
  sigmas := AtSigmas.imp h fun _ _ hsigma => hsigma.isFinal_append before after

/-- Characters whose sigmas read alike are lower-cased as they are alone. -/
theorem lowerWithin_eq {before cs after : List Char} (h : ReadsAlike before cs after) :
    lowerWithin before cs after = lowerAfter [] cs := by
  -- on the way through `cs` the part that is passed, `inner`, counts as standing before
  have hfrom : ∀ inner, AtSigmas (fun b a => isFinal (b ++ before) (a ++ after) = isFinal b a)
      inner cs → lowerWithin (inner ++ before) cs after = lowerAfter inner cs := by
    clear h
    induction cs with
    | nil => exact fun _ _ => rfl
    | cons c cs ih =>
      intro inner h
      rw [lowerWithin, lowerAfter, lowerBetween_congr h.1, ← ih (c :: inner) h.2, List.cons_append]
  exact hfrom [] h.sigmas

/-- Characters whose sigmas read alike are found in lower case where they occur. -/
theorem occursIn_of_readsAlike {before cs after : List Char}
    (h : ReadsAlike before.reverse cs after) :
    occursIn (lowerAfter [] cs) (lowerAfter [] (before ++ cs ++ after)) = true := by
  rw [occursIn_iff, List.append_assoc, lowerAfter_append, lowerAfter_append, List.append_nil,
    lowerWithin_eq h]
  exact ⟨_, _, List.append_assoc _ _ _⟩

/-! ## Sigmas that do not read alike -/

/-- No small sigma inside a word comes up when a final one stays final. -/
theorem count_small_le {before before' after after' : List Char}
    (h : isFinal before after = true → isFinal before' after' = true) :
    (lowerBetween before' 'Σ' after').count 'σ' ≤ (lowerBetween before 'Σ' after).count 'σ' := by
  rw [lowerBetween_sigma, lowerBetween_sigma]
  revert h
  cases isFinal before after <;> cases isFinal before' after' <;> decide

/-- No final sigma comes up when one inside a word stays there. -/
theorem count_final_le {before before' after after' : List Char}
    (h : isFinal before' after' = true → isFinal before after = true) :
    (lowerBetween before' 'Σ' after').count 'ς' ≤ (lowerBetween before 'Σ' after).count 'ς' := by
  rw [lowerBetween_sigma, lowerBetween_sigma]
  revert h
  cases isFinal before after <;> cases isFinal before' after' <;> decide

/-- When no sigma comes to the form `t`, that form is not more frequent. -/
theorem count_lowerWithin_le {t : Char} {before before' after after' : List Char}
    (h : ∀ b a, (lowerBetween (b ++ before') 'Σ' (a ++ after')).count t ≤
      (lowerBetween (b ++ before) 'Σ' (a ++ after)).count t) (inner cs : List Char) :
    (lowerWithin (inner ++ before') cs after').count t ≤
      (lowerWithin (inner ++ before) cs after).count t := by
  induction cs generalizing inner with
  | nil => exact le_rfl
  | cons c cs ih =>
    rw [lowerWithin, lowerWithin, List.count_append, List.count_append]
    refine Nat.add_le_add ?_ (ih (c :: inner))
    by_cases hc : c = 'Σ'
    · rw [hc]
      exact h inner cs
    · rw [lowerBetween_congr fun hsigma => absurd hsigma hc]

/-- When moreover one sigma leaves the form `t`, that form is less frequent. -/
theorem count_lowerWithin_lt {t : Char} {before before' after after' xs ys : List Char}
    (h : ∀ b a, (lowerBetween (b ++ before') 'Σ' (a ++ after')).count t ≤
      (lowerBetween (b ++ before) 'Σ' (a ++ after)).count t)
    (hsigma : (lowerBetween (xs.reverse ++ before') 'Σ' (ys ++ after')).count t <
      (lowerBetween (xs.reverse ++ before) 'Σ' (ys ++ after)).count t) :
    (lowerWithin before' (xs ++ 'Σ' :: ys) after').count t <
      (lowerWithin before (xs ++ 'Σ' :: ys) after).count t := by
  have hfront : (lowerWithin before' xs ('Σ' :: ys ++ after')).count t ≤
      (lowerWithin before xs ('Σ' :: ys ++ after)).count t := by
    refine count_lowerWithin_le (fun b a => ?_) [] xs
    rw [← List.append_assoc, ← List.append_assoc]
    exact h b (a ++ 'Σ' :: ys)
  have hback := count_lowerWithin_le h ('Σ' :: xs.reverse) ys
  simp only [lowerWithin_append, lowerWithin, List.count_append]
  rw [List.cons_append, List.cons_append] at hback
  omega

theorem occursIn_eq_false_of_count_lt {pattern text : List Char} {t : Char}
    (h : text.count t < pattern.count t) : occursIn pattern text = false := by
  rw [Bool.eq_false_iff, ne_eq, occursIn_iff]
  exact fun hoccurs => absurd (hoccurs.sublist.count_le t) (Nat.not_le.mpr h)

theorem lowerBetween_a (before after : List Char) : lowerBetween before 'a' after = ['a'] := rfl

theorem meetsCased_append_a {xs : List Char} (h : neighbour? xs = none) :
    meetsCased xs = false ∧ meetsCased (xs ++ ['a']) = true := by
  have hnil := meetsCased_append_of_none h []
  rw [List.append_nil] at hnil
  exact ⟨hnil, (meetsCased_append_of_none h ['a']).trans (by decide +kernel)⟩

/-- A letter in front of a sigma without a left neighbour may end a word with it, and a letter after
one without a right neighbour may go on with a word that ended there. -/
theorem exists_not_occursIn {cs : List Char} (h : ¬Settled cs) :
    ∃ text, cs <:+: text ∧ occursIn (lowerAfter [] cs) (lowerAfter [] text) = false := by
  obtain ⟨xs, ys, rfl, hopen⟩ := AtSigmas.exists_of_not h
  -- either letter leaves no more sigmas in the one form than there were, and takes it from this one
  rw [List.append_nil, SettledBetween, not_and_or, Classical.not_imp, Classical.not_imp] at hopen
  rcases hopen with ⟨hleft, hright⟩ | ⟨hright, hleft⟩
  · refine ⟨'a' :: (xs ++ 'Σ' :: ys), (List.suffix_cons _ _).isInfix,
      occursIn_eq_false_of_count_lt (t := 'σ') ?_⟩
    obtain ⟨halone, hbehind⟩ := meetsCased_append_a hleft
    rw [lowerAfter, lowerBetween_a, lowerAfter_eq, lowerAfter_eq, List.count_append]
    refine (Nat.zero_add _).trans_lt (count_lowerWithin_lt (fun b a => ?_) ?_)
    · rw [List.append_nil, List.append_nil]
      exact count_small_le (isFinal_append ['a'])
    · simp only [List.append_nil, lowerBetween_sigma, isFinal, halone, hbehind, hright]
      decide
  · refine ⟨xs ++ 'Σ' :: ys ++ ['a'], (List.prefix_append _ _).isInfix,
      occursIn_eq_false_of_count_lt (t := 'ς') ?_⟩
    obtain ⟨halone, hbefore⟩ := meetsCased_append_a hright
    rw [lowerAfter_append, lowerAfter, lowerAfter, lowerBetween_a, lowerAfter_eq, List.count_append]
    refine count_lowerWithin_lt (fun b a => ?_) ?_
    · rw [List.append_nil, List.append_nil]
      exact count_final_le isFinal_of_append
    · simp only [List.append_nil, lowerBetween_sigma, isFinal, halone, hbefore, hleft]
      decide

/-! ## Search for a text -/

theorem containsFolded_eq (text pattern : String) : containsFolded text pattern =
    occursIn (lowerAfter [] pattern.toList) (lowerAfter [] text.toList) := by
  rw [containsFolded, lowercase, lowercase, String.toList_ofList, String.toList_ofList]

/-- A pattern is found in every text in which it occurs exactly if its sigmas are settled. -/
theorem containsFolded_of_occurs_iff {pattern : String} :
    (∀ text : String, pattern.toList <:+: text.toList → containsFolded text pattern = true) ↔
      Settled pattern.toList := by
  constructor
  · intro h
    by_contra hopen
    obtain ⟨text, hoccurs, hmissed⟩ := exists_not_occursIn hopen
    have hfound := h (String.ofList text) (by rwa [String.toList_ofList])
    rw [containsFolded_eq, String.toList_ofList, hmissed] at hfound
    cases hfound
  · rintro hsettled text ⟨before, after, htext⟩
    rw [containsFolded_eq, ← htext]
    exact occursIn_of_readsAlike (hsettled.readsAlike _ _)

end Marketplace.Text
