import Marketplace.Order.Request
import Marketplace.Proofs.Text.Digits
set_option autoImplicit false

/-!
# What entries of requests denote

Numbers in requests about baskets are positive integers of 64 bits, and where the form is loose also
texts of digits.  The checks of entries accept these and no other values.

The checks are turned into predicates on values, `Json.Value.IsPositive` and
`Json.Value.DenotesPositive`, so that what is said of requests elsewhere speaks of what buyers send
and not of how it is checked.
-/

namespace Marketplace

/-! ## Positive numbers -/

/-- The value is a positive integer that fits into 64 bits.  Fractions are none, even if nothing is
behind the point. -/
def Json.Value.IsPositive (v : Json.Value) (n : Int) : Prop :=
  v = .number (.int n) ∧ 0 < n ∧ n < 2 ^ 63

/-- The value is a positive integer that fits into 64 bits, or a text of digits that write one.
Zeros in front make no difference, signs and blanks do. -/
def Json.Value.DenotesPositive (v : Json.Value) (n : Int) : Prop :=
  v.IsPositive n ∨ ∃ s, v = .text s ∧ Text.isDigits s.toList = true ∧
    (Text.digitsValue s.toList : Int) = n ∧ 0 < n ∧ n < 2 ^ 63

theorem bind_positive?_eq_some_iff {o : Option Int} {n : Int} :
    o.bind positive? = some n ↔ o = some n ∧ 0 < n := by
  rw [Option.bind_eq_some_iff]
  constructor
  · rintro ⟨m, hm, hpositive⟩
    unfold positive? at hpositive
    split at hpositive
    · cases hpositive
      exact ⟨hm, by assumption⟩
    · cases hpositive
  · rintro ⟨hn, hpositive⟩
    exact ⟨n, hn, if_pos hpositive⟩

theorem Json.Number.toSigned?_eq_some_iff {m : Json.Number} {n : Int} :
    m.toSigned? = some n ↔ m = .int n ∧ n < 2 ^ 63 := by
  unfold toSigned?
  split
  · rename_i k
    rw [Json.Number.int.injEq]
    split
    · rw [Option.some.injEq]
      omega
    · refine ⟨nofun, ?_⟩
      omega
  · exact ⟨nofun, fun h => nomatch h.1⟩

theorem strictInteger?_eq_some_iff {v : Json.Value} {n : Int} :
    strictInteger? v = some n ↔ v = .number (.int n) ∧ n < 2 ^ 63 := by
  unfold strictInteger?
  split
  · rw [Json.Number.toSigned?_eq_some_iff, Json.Value.number.injEq]
  · rename_i hno
    exact ⟨nofun, fun h => absurd h.1 (hno _)⟩

/-- Besides integers, texts of digits are accepted where the form is loose.  A text too long for 64
bits denotes nothing, and is not cut off. -/
theorem looseInteger?_eq_some_iff {v : Json.Value} {n : Int} :
    looseInteger? v = some n ↔ v = .number (.int n) ∧ n < 2 ^ 63 ∨
      ∃ s, v = .text s ∧ Text.isDigits s.toList = true ∧
        (Text.digitsValue s.toList : Int) = n ∧ n < 2 ^ 63 := by
  unfold looseInteger?
  split
  · rw [Json.Number.toSigned?_eq_some_iff, Json.Value.number.injEq]
    exact ⟨Or.inl, fun h => h.resolve_right nofun⟩
  · rename_i s
    split
    · rename_i hdigits
      have hread := Text.readIntegerChars_eq_ok_iff hdigits (n := n)
      constructor
      · intro h
        refine Or.inr ⟨s, rfl, hdigits, ?_⟩
        apply hread.mp
        cases hvalue : Text.readInteger .signed64 s with
        | error f =>
          rw [hvalue] at h
          cases h
        | ok m =>
          rw [hvalue] at h
          cases h
          exact hvalue
      · rintro (⟨hnumber, -⟩ | ⟨_, ⟨⟩, -, hvalue⟩)
        · cases hnumber
        · rw [Text.readInteger, hread.mpr hvalue]
          rfl
    · rename_i hdigits
      refine ⟨nofun, ?_⟩
      rintro (⟨hnumber, -⟩ | ⟨_, ⟨⟩, hd, -⟩)
      · cases hnumber
      · exact absurd hd hdigits
  · rename_i hno hno'
    refine ⟨nofun, ?_⟩
    rintro (⟨rfl, -⟩ | ⟨s, rfl, -⟩)
    · exact absurd rfl (hno _)
    · exact absurd rfl (hno' s)

theorem strict_positive?_iff {v : Json.Value} {n : Int} :
    (strictInteger? v).bind positive? = some n ↔ v.IsPositive n := by
  rw [bind_positive?_eq_some_iff, strictInteger?_eq_some_iff, and_assoc]
  exact and_congr_right fun _ => and_comm

theorem loose_positive?_iff {v : Json.Value} {n : Int} :
    (looseInteger? v).bind positive? = some n ↔ v.DenotesPositive n := by
  rw [bind_positive?_eq_some_iff, looseInteger?_eq_some_iff]
  constructor
  · rintro ⟨⟨hv, hlt⟩ | ⟨s, hv, hdigits, hvalue, hlt⟩, hpositive⟩
    · exact Or.inl ⟨hv, hpositive, hlt⟩
    · exact Or.inr ⟨s, hv, hdigits, hvalue, hpositive, hlt⟩
  · rintro (⟨hv, hpositive, hlt⟩ | ⟨s, hv, hdigits, hvalue, hpositive, hlt⟩)
    · exact ⟨Or.inl ⟨hv, hlt⟩, hpositive⟩
    · exact ⟨Or.inr ⟨s, hv, hdigits, hvalue, hlt⟩, hpositive⟩

/-- An entry is well formed if it names an item and a quantity, both as positive integers.  Here
texts of digits are not accepted. -/
theorem UpdateInput.wellFormed?_eq_some_iff {input : UpdateInput} {x : OrderItemId × Int} :
    input.wellFormed? = some x ↔ ∃ v q, input.id = some v ∧ v.IsPositive x.1.value ∧
      input.quantity = some q ∧ q.IsPositive x.2 := by
  obtain ⟨⟨id⟩, quantity⟩ := x
  simp only [wellFormed?, Option.bind_eq_bind, Option.bind_eq_some_iff,
    ← strict_positive?_iff]
  constructor
  · rintro ⟨m, ⟨v, hv, hm⟩, k, hk, n, ⟨q, hq, hn⟩, l, hl, heq⟩
    cases heq
    exact ⟨v, q, hv, ⟨m, hm, hk⟩, hq, n, hn, hl⟩
  · rintro ⟨v, q, hv, ⟨m, hm, hk⟩, hq, n, hn, hl⟩
    exact ⟨m, ⟨v, hv, hm⟩, id, hk, n, ⟨q, hq, hn⟩, quantity, hl, rfl⟩

/-- Entries that are passed on have a positive quantity. -/
theorem UpdateInput.pos_of_mem_wellFormed (inputs : List UpdateInput) :
    ∀ x ∈ inputs.filterMap wellFormed?, 0 < x.2 := by
  intro x hx
  obtain ⟨input, -, hinput⟩ := List.mem_filterMap.mp hx
  obtain ⟨_, _, _, _, _, hquantity⟩ := wellFormed?_eq_some_iff.mp hinput
  exact hquantity.2.1

/-! ## Entries that are added -/

/-- A refusal for faults of fields begins with the name of the first field, whatever the other
faults are. -/
theorem FieldFault.exists_refusal_eq (fault : FieldFault) (faults : List FieldFault) :
    ∃ rest, refusal (fault :: faults) = .invalidArguments (fault.field ++ rest) := by
  unfold refusal
  cases faults with
  | nil =>
    refine ⟨": " ++ fault.reason, congrArg Refusal.invalidArguments ?_⟩
    simp only [List.map_cons, List.map_nil, String.intercalate_singleton]
    exact String.append_assoc
  | cons next faults =>
    refine ⟨": " ++ fault.reason ++ ("; " ++ "; ".intercalate
      ((next :: faults).map fun f => s!"{f.field}: {f.reason}")),
      congrArg Refusal.invalidArguments ?_⟩
    simp only [List.map_cons, String.intercalate_cons_cons, String.append_assoc]
    rfl

/-- What begins with the place of a field of an entry begins with the place of the entry. -/
theorem place_append (index : Nat) (field rest : String) :
    "items[" ++ toString index ++ ("]" ++ field) ++ rest =
      s!"items[{index}]" ++ (field ++ rest) := by
  show _ = "items[" ++ toString index ++ "]" ++ (field ++ rest)
  simp only [String.append_assoc]

/-- The field holds a value that denotes the number, or the fault names the field.  A field that is
missing holds no value, so it is of the second kind. -/
theorem positiveField_cases (field reason : String) (v : Option Json.Value) :
    (∃ x n, v = some x ∧ x.DenotesPositive n ∧ positiveField field reason v = .ok n) ∨
      (∀ x n, v = some x → ¬x.DenotesPositive n) ∧
        ∃ why, positiveField field reason v = .error ⟨field, why⟩ := by
  unfold positiveField
  split
  · exact Or.inr ⟨nofun, _, rfl⟩
  · refine Or.inr ⟨?_, _, rfl⟩
    rintro _ n ⟨⟩ (⟨hnumber, -⟩ | ⟨s, htext, -⟩)
    · cases hnumber
    · cases htext
  · rename_i x _
    cases hvalue : (looseInteger? x).bind positive? with
    | some n => exact Or.inl ⟨x, n, rfl, loose_positive?_iff.mp hvalue, rfl⟩
    | none =>
      refine Or.inr ⟨?_, reason, rfl⟩
      rintro _ n ⟨⟩ hn
      rw [loose_positive?_iff.mpr hn] at hvalue
      cases hvalue

namespace AddInput

/-- The entry asks for the item: both of its fields denote what the item has. -/
structure AsksFor (input : AddInput) (item : AddItem) : Prop where
  listing : ∃ v, input.listing = some v ∧ v.DenotesPositive item.listing.value
  quantity : ∃ v, input.quantity = some v ∧ v.DenotesPositive item.quantity

/-- An entry that asks for an item passes the check, and the refusal of any other one begins with
its place. -/
theorem check_cases (input : AddInput) (index : Nat) :
    (∃ item, input.AsksFor item ∧ input.check index = .ok item) ∨
      (∀ item, ¬input.AsksFor item) ∧
        ∃ rest, input.check index = .error (.invalidArguments (s!"items[{index}]" ++ rest)) := by
  have hplaced : ∀ (field why : String) (faults : List FieldFault), ∃ rest,
      FieldFault.refusal (⟨"items[" ++ toString index ++ ("]" ++ field), why⟩ :: faults) =
        .invalidArguments (s!"items[{index}]" ++ rest) := by
    intro field why faults
    obtain ⟨rest, hrest⟩ := FieldFault.exists_refusal_eq
      ⟨"items[" ++ toString index ++ ("]" ++ field), why⟩ faults
    exact ⟨field ++ rest, hrest.trans (congrArg Refusal.invalidArguments (place_append ..))⟩
  unfold check
  rcases positiveField_cases s!"items[{index}].listing" "must be a positive integer id"
    input.listing with ⟨v, n, hv, hn, hlisting⟩ | ⟨hnot, why, hlisting⟩
  · rcases positiveField_cases s!"items[{index}].quantity" "must be a positive integer"
      input.quantity with ⟨q, m, hq, hm, hquantity⟩ | ⟨hnot', why', hquantity⟩
    · refine Or.inl ⟨⟨⟨n⟩, m⟩, ⟨⟨v, hv, hn⟩, q, hq, hm⟩, ?_⟩
      rw [hlisting, hquantity]
      rfl
    · obtain ⟨rest, hrest⟩ := hplaced ".quantity" why' []
      refine Or.inr ⟨fun item hasks => ?_, rest, ?_⟩
      · obtain ⟨q, hq, hm⟩ := hasks.quantity
        exact hnot' q _ hq hm
      · rw [hlisting, hquantity]
        exact congrArg Except.error hrest
  · refine Or.inr ⟨fun item hasks => ?_, ?_⟩
    · obtain ⟨v, hv, hn⟩ := hasks.listing
      exact hnot v _ hv hn
    · rw [hlisting]
      rcases positiveField s!"items[{index}].quantity" "must be a positive integer"
        input.quantity with fault | m
      · obtain ⟨rest, hrest⟩ := hplaced ".listing" why [fault]
        exact ⟨rest, congrArg Except.error hrest⟩
      · obtain ⟨rest, hrest⟩ := hplaced ".listing" why []
        exact ⟨rest, congrArg Except.error hrest⟩

end AddInput

end Marketplace
