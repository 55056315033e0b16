import Marketplace.Proofs.Catalog.Edit
import Marketplace.Proofs.Json.Encoded
import Marketplace.Proofs.Order.Request
import Marketplace.Proofs.Text.Blank
set_option autoImplicit false

/-!
# Lists of identifiers

Identifiers to remove come as an array or as a text with commas.  Both forms are read alike: what is
left is ascending, and holds the positive numbers of 64 bits that some element or piece denotes and
no others.
-/

namespace Marketplace

open Json (Value)

namespace Text

/-- The characters are digits, at least one, and write the number. -/
def Denote (cs : List Char) (n : Int) : Prop := isDigits cs = true ∧ (digitsValue cs : Int) = n

/-- The characters are no digits, or write a number that 63 bits do not hold. -/
def IsIdle (cs : List Char) : Prop := isDigits cs = true → 2 ^ 63 ≤ digitsValue cs

/-- A text that is empty, or has a sign in front, is idle. -/
theorem isIdle_of_head {cs : List Char} (h : cs = [] ∨ cs.head? = some '+' ∨ cs.head? = some '-') :
    IsIdle cs := by
  intro hdigits
  rcases h with rfl | h | h
  · cases hdigits
  · obtain ⟨ds, rfl⟩ := List.head?_eq_some_iff.mp h
    cases hdigits
  · obtain ⟨ds, rfl⟩ := List.head?_eq_some_iff.mp h
    cases hdigits

end Text

namespace IdList

variable {kind : IdKind} {n : Int}

/-! ## Pieces -/

/-- The text of pieces with commas between them. -/
def joined (ps : List (List Char)) : String := String.ofList ([','].intercalate ps)

theorem pieces_eq_splitOn (cs : List Char) : pieces cs = cs.splitOn ',' := by
  induction cs with
  | nil => rfl
  | cons c cs ih =>
    rw [List.splitOn_cons_eq_if_modifyHead, pieces, ih]
    split
    · rfl
    · obtain ⟨p, ps, hps⟩ := List.exists_cons_of_ne_nil (List.splitOn_ne_nil ',' cs)
      rw [hps]
      rfl

theorem pieceValue?_eq_some_iff {p : List Char} :
    pieceValue? p = some n ↔ Text.Denote (Text.trimChars p) n ∧ n < 2 ^ 63 := by
  unfold pieceValue? Text.Denote
  dsimp only
  split
  · rename_i hdigits
    have hread := Text.readIntegerChars_eq_ok_iff hdigits (n := n)
    rw [and_assoc, and_iff_right hdigits, ← hread]
    cases Text.readIntegerChars .signed64 (Text.trimChars p) <;> simp [Except.toOption]
  · rename_i hdigits
    simp [hdigits]

/-- The numbers of a joined text are those of its pieces. -/
theorem numbers_joined {ps : List (List Char)} (h : ∀ p ∈ ps, ',' ∉ p) :
    (commaSeparated (joined ps)).numbers = ps.filterMap pieceValue? := by
  rw [numbers, joined, String.toList_ofList, pieces_eq_splitOn]
  cases ps with
  | nil => rfl
  | cons p ps => rw [List.splitOn_intercalate ',' h (List.cons_ne_nil p ps)]

/-! ## Members -/

theorem mem_ids {l : IdList} : ⟨n⟩ ∈ l.ids kind ↔ n ∈ l.numbers ∧ 0 < n := by
  have hpositive {m : Int} : positive? m = some n ↔ m = n ∧ 0 < n := by
    simpa using bind_positive?_eq_some_iff (o := some m) (n := n)
  simp only [ids, Id.mem_sorted, List.mem_map, List.mem_filterMap, Id.mk.injEq, exists_eq_right,
    hpositive]
  constructor
  · rintro ⟨m, hm, rfl, hn⟩
    exact ⟨hm, hn⟩
  · rintro ⟨hm, hn⟩
    exact ⟨n, hm, rfl, hn⟩

/-- An array gives the identifiers that its elements denote. -/
theorem mem_ids_values {vs : List Value} :
    ⟨n⟩ ∈ (values vs).ids kind ↔ 1 ≤ n ∧ n ≤ 2 ^ 63 - 1 ∧
      ∃ v ∈ vs, v = .int n ∨ ∃ s, v = .text s ∧ Text.Denote s.toList n := by
  simp only [mem_ids, numbers, List.mem_filterMap, looseInteger?_eq_some_iff]
  constructor
  · rintro ⟨⟨v, hv, ⟨hvalue, hlt⟩ | ⟨s, hvalue, hdigits, hs, hlt⟩⟩, hn⟩
    · exact ⟨hn, by omega, v, hv, Or.inl hvalue⟩
    · exact ⟨hn, by omega, v, hv, Or.inr ⟨s, hvalue, hdigits, hs⟩⟩
  · rintro ⟨hn, hle, v, hv, hvalue | ⟨s, hvalue, hdigits, hs⟩⟩
    · exact ⟨⟨v, hv, Or.inl ⟨hvalue, by omega⟩⟩, hn⟩
    · exact ⟨⟨v, hv, Or.inr ⟨s, hvalue, hdigits, hs, by omega⟩⟩, hn⟩

/-- A text gives the identifiers that the trimmed pieces between its commas denote. -/
theorem mem_ids_commaSeparated {s : String} :
    ⟨n⟩ ∈ (commaSeparated s).ids kind ↔ 1 ≤ n ∧ n ≤ 2 ^ 63 - 1 ∧
      ∃ p ∈ s.toList.splitOn ',', Text.Denote (Text.trimChars p) n := by
  simp only [mem_ids, numbers, pieces_eq_splitOn, List.mem_filterMap, pieceValue?_eq_some_iff]
  constructor
  · rintro ⟨⟨p, hp, hdenote, hlt⟩, hn⟩
    exact ⟨hn, by omega, p, hp, hdenote⟩
  · rintro ⟨hn, hle, p, hp, hdenote⟩
    exact ⟨⟨p, hp, hdenote, by omega⟩, hn⟩

/-- Whatever the list, its identifiers are positive and of 63 bits. -/
theorem range_of_mem_ids {l : IdList} {i : Id kind} (hi : i ∈ l.ids kind) :
    1 ≤ i.value ∧ i.value ≤ 2 ^ 63 - 1 := by
  cases l with
  | values vs =>
    obtain ⟨hlow, hhigh, -⟩ := mem_ids_values.mp hi
    exact ⟨hlow, hhigh⟩
  | commaSeparated s =>
    obtain ⟨hlow, hhigh, -⟩ := mem_ids_commaSeparated.mp hi
    exact ⟨hlow, hhigh⟩

/-! ## What denotes no number -/

/-- Fractions contribute nothing, and neither do texts that are idle. -/
theorem ids_values_of_idle {v : Value}
    (hv : (∃ x, v = .number (.float x)) ∨ ∃ s, v = .text s ∧ Text.IsIdle s.toList)
    (xs ys : List Value) : (values (xs ++ v :: ys)).ids kind = (values (xs ++ ys)).ids kind := by
  have hnone : looseInteger? v = none := by
    rw [Option.eq_none_iff_forall_ne_some]
    intro m hm
    rcases looseInteger?_eq_some_iff.mp hm with ⟨hint, -⟩ | ⟨s, rfl, hdigits, hs, hlt⟩
    · rcases hv with ⟨x, rfl⟩ | ⟨s, rfl, -⟩ <;> cases hint
    · rcases hv with ⟨x, hx⟩ | ⟨s', heq, hidle⟩
      · cases hx
      · cases heq
        have hlarge := hidle hdigits
        omega
  simp only [ids, numbers, List.filterMap_append, List.filterMap_cons_none hnone]

/-- Pieces that are idle contribute nothing. -/
theorem ids_joined_of_idle {p : List Char} (hp : Text.IsIdle (Text.trimChars p))
    {xs ys : List (List Char)} (h : ∀ q ∈ xs ++ p :: ys, ',' ∉ q) :
    (commaSeparated (joined (xs ++ p :: ys))).ids kind =
      (commaSeparated (joined (xs ++ ys))).ids kind := by
  have hnone : pieceValue? p = none := by
    rw [Option.eq_none_iff_forall_ne_some]
    intro m hm
    obtain ⟨⟨hdigits, hs⟩, hlt⟩ := pieceValue?_eq_some_iff.mp hm
    have hlarge := hp hdigits
    omega
  have hothers : ∀ q ∈ xs ++ ys, ',' ∉ q := by
    intro q hq
    refine h q ?_
    rw [List.mem_append] at hq
    rw [List.mem_append]
    exact hq.imp_right (List.mem_cons_of_mem p)
  simp only [ids, numbers_joined h, numbers_joined hothers, List.filterMap_append,
    List.filterMap_cons_none hnone]

/-! ## Integers in both spellings -/

/-- An integer with blanks around its decimal form. -/
structure Padded where
  left : List Char
  number : Int
  right : List Char

namespace Padded

variable {p : Padded}

/-- The number is one of 64 bits, and there are only blanks around it. -/
structure Fits (p : Padded) : Prop where
  left : ∀ c ∈ p.left, Text.isBlank c = true
  number : Signed64 p.number
  right : ∀ c ∈ p.right, Text.isBlank c = true

/-- The characters. -/
def chars (p : Padded) : List Char := p.left ++ ((toString p.number).toList ++ p.right)

theorem of_mem_toString {n : Int} {c : Char} (hc : c ∈ (toString n).toList) :
    c = '-' ∨ c.isDigit = true := by
  have hdigit {m : Nat} (hc : c ∈ Nat.toDigits 10 m) : c.isDigit = true :=
    List.all_eq_true.mp (Text.all_isDigit_toDigits m) c hc
  rcases Int.lt_or_le n 0 with hn | hn
  · obtain ⟨m, rfl⟩ := Int.exists_eq_neg_ofNat (Int.le_of_lt hn)
    rw [Text.toList_toString_neg (by omega), List.mem_cons] at hc
    exact hc.imp_right hdigit
  · obtain ⟨m, rfl⟩ := Int.eq_ofNat_of_zero_le hn
    rw [Text.toList_toString_natCast] at hc
    exact Or.inr (hdigit hc)

theorem isBlank_of_mem_toString {n : Int} {c : Char} (hc : c ∈ (toString n).toList) :
    Text.isBlank c = false := by
  rcases of_mem_toString hc with rfl | hdigit
  · rfl
  · exact Text.isBlank_of_isDigit hdigit

theorem Fits.trimChars_chars (h : p.Fits) :
    Text.trimChars p.chars = (toString p.number).toList :=
  Text.trimChars_padded h.left (fun _ => isBlank_of_mem_toString) h.right

theorem Fits.comma_not_mem (h : p.Fits) : ',' ∉ p.chars := by
  have hblank : Text.isBlank ',' = false := rfl
  simp only [chars, List.mem_append, not_or]
  refine ⟨fun hmem => ?_, fun hmem => ?_, fun hmem => ?_⟩
  · rw [h.left _ hmem] at hblank
    cases hblank
  · rcases of_mem_toString hmem with hminus | hdigit
    · cases hminus
    · cases hdigit
  · rw [h.right _ hmem] at hblank
    cases hblank

/-- As a piece of a text, the integer counts if it counts as an element of an array; a negative one
does not, for its sign is no digit. -/
theorem Fits.bind_positive? (h : p.Fits) :
    (pieceValue? p.chars).bind positive? = (looseInteger? (.int p.number)).bind positive? := by
  have hlt := h.number.2
  have hvalue : looseInteger? (.int p.number) = some p.number :=
    looseInteger?_eq_some_iff.mpr (Or.inl ⟨rfl, hlt⟩)
  have htrim := h.trimChars_chars
  rw [hvalue]
  rcases Int.lt_or_le p.number 0 with hn | hn
  · obtain ⟨m, hm⟩ := Int.exists_eq_neg_ofNat (Int.le_of_lt hn)
    have hnone : pieceValue? p.chars = none := by
      rw [Option.eq_none_iff_forall_ne_some]
      intro k hk
      have hdigits := (pieceValue?_eq_some_iff.mp hk).1.1
      rw [htrim, hm, Text.toList_toString_neg (by omega)] at hdigits
      cases hdigits
    have hnegative : positive? p.number = none := if_neg (by omega)
    rw [hnone, Option.bind_some, hnegative]
    rfl
  · obtain ⟨m, hm⟩ := Int.eq_ofNat_of_zero_le hn
    have hpiece : pieceValue? p.chars = some p.number := by
      refine pieceValue?_eq_some_iff.mpr ⟨?_, hlt⟩
      rw [htrim, hm, Text.toList_toString_natCast]
      exact ⟨Text.isDigits_toDigits m, by rw [Text.digitsValue_toDigits]⟩
    rw [hpiece]

end Padded

/-- The two spellings of a list of integers give the same identifiers. -/
theorem ids_spellings {ps : List Padded} (h : ∀ p ∈ ps, p.Fits) :
    (values (ps.map fun p => .int p.number)).ids kind =
      (commaSeparated (joined (ps.map Padded.chars))).ids kind := by
  have hcommas : ∀ q ∈ ps.map Padded.chars, ',' ∉ q :=
    List.forall_mem_map.mpr fun p hp => (h p hp).comma_not_mem
  simp only [ids, numbers_joined hcommas]
  simp only [numbers, List.filterMap_map, List.filterMap_filterMap]
  congr 2
  refine List.filterMap_congr fun p hp => ?_
  exact (h p hp).bind_positive?.symm

/-! ## All of it -/

/-- What a list of identifiers comes to: its normal form, what it holds in either form, what adds
nothing to it, and that the array and the text of the same integers come to the same, whatever is to
be removed. -/
theorem ids_normal_form (kind : IdKind) :
    (∀ l : IdList, (l.ids kind).Pairwise (fun i j => i.value < j.value) ∧
      ∀ i ∈ l.ids kind, 1 ≤ i.value ∧ i.value ≤ 2 ^ 63 - 1) ∧
    (∀ (vs : List Value) (n : Int), ⟨n⟩ ∈ (values vs).ids kind ↔ 1 ≤ n ∧ n ≤ 2 ^ 63 - 1 ∧
      ∃ v ∈ vs, v = .int n ∨ ∃ s, v = .text s ∧ Text.Denote s.toList n) ∧
    (∀ (s : String) (n : Int), ⟨n⟩ ∈ (commaSeparated s).ids kind ↔ 1 ≤ n ∧ n ≤ 2 ^ 63 - 1 ∧
      ∃ p ∈ s.toList.splitOn ',', Text.Denote (Text.trimChars p) n) ∧
    (∀ (xs : List Value) (v : Value) (ys : List Value),
      ((∃ x, v = .number (.float x)) ∨ ∃ s, v = .text s ∧ Text.IsIdle s.toList) →
        (values (xs ++ v :: ys)).ids kind = (values (xs ++ ys)).ids kind) ∧
    (∀ (xs : List (List Char)) (p : List Char) (ys : List (List Char)),
      (∀ q ∈ xs ++ p :: ys, ',' ∉ q) → Text.IsIdle (Text.trimChars p) →
        (commaSeparated (joined (xs ++ p :: ys))).ids kind =
          (commaSeparated (joined (xs ++ ys))).ids kind) ∧
    ∀ ps : List Padded, (∀ p ∈ ps, p.Fits) →
      RemoveRequest.ids kind ⟨some (.values (ps.map fun p => .int p.number))⟩ =
        RemoveRequest.ids kind ⟨some (.commaSeparated (joined (ps.map Padded.chars)))⟩ :=
  ⟨fun _ => ⟨Id.pairwise_sorted _, fun _ => range_of_mem_ids⟩, fun _ _ => mem_ids_values,
    fun _ _ => mem_ids_commaSeparated, fun xs _ ys hv => ids_values_of_idle hv xs ys,
    fun _ _ _ hcommas hp => ids_joined_of_idle hp hcommas,
    fun _ hps => congrArg Except.ok (ids_spellings hps)⟩

/-- Contacts with the greatest number, one number twice, a negative one, a sign and a large
number. -/
theorem ids_normal_form_contacts :
    (RemoveRequest.ids .contact ⟨some (.values [.int 7, .int (2 ^ 63 - 1), .int (-3), .int 7])⟩ =
      RemoveRequest.ids .contact ⟨some (.commaSeparated " 7,9223372036854775807\t,-3,7\u3000")⟩) ∧
    (values [.int 7, .text "+5"]).ids .contact = (values [.int 7]).ids .contact ∧
    (commaSeparated "7, 9223372036854775808 ").ids .contact =
      (commaSeparated "7").ids .contact := by
  obtain ⟨-, -, -, hvalue, hpiece, hspellings⟩ := ids_normal_form .contact
  refine ⟨?_, ?_, ?_⟩
  · have hnone : ∀ c ∈ ([] : List Char), Text.isBlank c = true := nofun
    have hone (c : Char) (hc : Text.isBlank c = true) : ∀ d ∈ [c], Text.isBlank d = true :=
      List.forall_mem_singleton.mpr hc
    refine hspellings
      [⟨[' '], 7, []⟩, ⟨[], 2 ^ 63 - 1, ['\t']⟩, ⟨[], -3, []⟩, ⟨[], 7, ['\u3000']⟩] ?_
    simp only [List.forall_mem_cons]
    exact ⟨⟨hone _ rfl, by decide, hnone⟩, ⟨hnone, by decide, hone _ rfl⟩,
      ⟨hnone, by decide, hnone⟩, ⟨hnone, by decide, hone _ rfl⟩, nofun⟩
  · exact hvalue [.int 7] (.text "+5") []
      (Or.inr ⟨"+5", rfl, Text.isIdle_of_head (Or.inr (Or.inl rfl))⟩)
  · exact hpiece [['7']] " 9223372036854775808 ".toList [] (by decide)
      (by unfold Text.IsIdle; decide)

end IdList

end Marketplace
