import Marketplace.Proofs.Json.Reading
set_option autoImplicit false

/-!
# What has been read

A tree stands in the tokens that it has been read from (`Decoder.tokens_of_tree`), and a value that
has been passed over is a stretch of the tokens, which is passed over whatever follows it
(`Decoder.exists_stretch_of_skipFrom`).

Decoders are functions of tokens that give a value and what is left.  The lemmas here turn them
around: from what a decoder has given they say which tokens it must have been given.  Each is an
inversion of one reader, and the readers of trees are then taken apart by induction on their depth.
-/

namespace Marketplace

section Except

variable {ε ε' α β : Type} {x : Except ε α}

theorem Except.bind_eq_ok_iff {f : α → Except ε β} {b : β} :
    x.bind f = .ok b ↔ ∃ a, x = .ok a ∧ f a = .ok b := by
  cases x <;> simp [Except.bind]

theorem Except.map_eq_ok_iff {f : α → β} {b : β} :
    x.map f = .ok b ↔ ∃ a, x = .ok a ∧ f a = b := by
  cases x <;> simp [Except.map]

theorem Except.mapError_eq_ok_iff {f : ε → ε'} {a : α} : x.mapError f = .ok a ↔ x = .ok a := by
  constructor
  · intro h
    cases x <;> cases h
    rfl
  · rintro rfl
    rfl

end Except

end Marketplace

namespace Marketplace.Json.Decoder

variable {α : Type} {first : Bool} {ts rest : List Token}

/-! ## Separators

What stands between the items of an array or the members of an object is read in one step together
with the end, so each lemma says for one outcome which tokens there were.
-/

theorem nextItem_eq_close (h : nextItem first ts = .ok (.close rest)) :
    ts = .closeArray :: rest := by
  unfold nextItem at h
  split at h
  · cases h
    rfl
  · split at h
    · cases h
    · split at h <;> cases h
  · cases h
  · split at h <;> cases h

/-- A comma stands in front of every item but the first one; `Value.lead` is that comma. -/
theorem nextItem_eq_item (h : nextItem first ts = .ok (.item rest)) :
    ts = Value.lead first ++ rest := by
  unfold nextItem at h
  split at h
  · cases h
  · cases first with
    | true =>
      cases h
      rfl
    | false =>
      simp only [Bool.false_eq_true, if_false] at h
      split at h <;> cases h
      rfl
  · cases h
  · cases first with
    | true =>
      cases h
      rfl
    | false => cases h

/-- The name of a member is a text without a broken part in it. -/
theorem memberName_eq_ok {n : NextMember} (h : memberName ts = .ok n) :
    ∃ k rest, ts = .text (some k) :: rest ∧ n = .name k rest := by
  unfold memberName at h
  split at h
  · cases h
    exact ⟨_, _, rfl, rfl⟩
  · cases h

theorem nextMember_eq_close (h : nextMember first ts = .ok (.close rest)) :
    ts = .closeObject :: rest := by
  unfold nextMember at h
  split at h
  · cases h
    rfl
  all_goals
    split at h
    all_goals
      first
      | cases h
      | obtain ⟨k, rest, -, hn⟩ := memberName_eq_ok h
        cases hn

theorem nextMember_eq_name {k : String} (h : nextMember first ts = .ok (.name k rest)) :
    ts = Value.lead first ++ .text (some k) :: rest := by
  unfold nextMember at h
  split at h
  · cases h
  all_goals
    cases first
    all_goals
      first
      | cases h
      | obtain ⟨k, rest, rfl, hn⟩ := memberName_eq_ok h
        cases hn
        rfl

theorem afterColon_eq_ok (h : afterColon ts = .ok rest) : ts = .colon :: rest := by
  unfold afterColon at h
  split at h
  · cases h
    rfl
  · cases h

/-! ## Trees -/

section Run

variable {d : List Token → Except Fault (Value × List Token)} {fuel : Nat}

/-- The items of an array, if whatever reads one of them stands for its tokens.  The induction is on
the fuel, one unit for each item. -/
theorem tokens_of_items (hd : ∀ ts v rest, d ts = .ok (v, rest) → ts = v.tokens ++ rest)
    {vs : List Value} (h : items d fuel first ts = .ok (vs, rest)) :
    ts = Value.itemRun first vs ++ .closeArray :: rest := by
  fun_induction items d fuel first ts generalizing vs with
  | case3 fuel first ts rest' hnext =>
    cases h
    exact nextItem_eq_close hnext
  | case5 fuel first ts ts' hnext v rest' hread ih =>
    obtain ⟨p, hp, heq⟩ := Except.map_eq_ok_iff.mp h
    cases heq
    rw [nextItem_eq_item hnext, hd _ _ _ hread, ih hp, Value.itemRun, List.append_assoc,
      List.append_assoc]
  | _ => cases h

/-- The same for the members of an object, with the name and the colon of each. -/
theorem tokens_of_members (hd : ∀ ts v rest, d ts = .ok (v, rest) → ts = v.tokens ++ rest)
    {ms : List (String × Value)} (h : members d fuel first ts = .ok (ms, rest)) :
    ts = Value.memberRun first ms ++ .closeObject :: rest := by
  fun_induction members d fuel first ts generalizing ms with
  | case3 fuel first ts rest' hnext =>
    cases h
    exact nextMember_eq_close hnext
  | case6 fuel first ts k ts' hnext ts'' hcolon v rest' hread ih =>
    obtain ⟨p, hp, heq⟩ := Except.map_eq_ok_iff.mp h
    cases heq
    rw [nextMember_eq_name hnext, afterColon_eq_ok hcolon, hd _ _ _ hread, ih hp, Value.memberRun]
    simp only [List.append_assoc, List.cons_append]
  | _ => cases h

end Run

/-- A scalar is one token. -/
theorem tokens_of_leaf {n : Nat} {v : Value} (h : tree.leaf n ts = .ok (v, rest)) :
    ts = v.tokens ++ rest := by
  unfold tree.leaf at h
  split at h
  · cases h
  · cases h
  · cases ts with
    | nil => cases h
    | cons t ts =>
      simp only [scalar] at h
      split at h
      · rename_i hv
        cases h
        cases t with
        | null | bool b =>
          cases hv
          rfl
        | number n | text s =>
          obtain ⟨_, rfl, rfl⟩ := Option.map_eq_some_iff.mp hv
          rfl
        | _ => cases hv
      · cases h

/-- A tree stands in front of the tokens that it has been read from.  The induction is on the depth,
for the items of an array and the members of an object are one level deeper. -/
theorem tokens_of_tree {n : Nat} {v : Value} (h : tree n ts = .ok (v, rest)) :
    ts = v.tokens ++ rest := by
  induction n generalizing ts v rest with
  | zero => exact tokens_of_leaf h
  | succ n ih =>
    have htree : ∀ ts v rest, tree n ts = .ok (v, rest) → ts = v.tokens ++ rest :=
      fun ts v rest => ih
    cases ts with
    | nil => exact tokens_of_leaf h
    | cons t ts =>
      cases t with
      | openArray =>
        obtain ⟨p, hp, heq⟩ := Except.map_eq_ok_iff.mp h
        cases heq
        rw [tokens_of_items htree hp, Value.tokens_array, List.cons_append, List.append_assoc]
        rfl
      | openObject =>
        obtain ⟨p, hp, heq⟩ := Except.map_eq_ok_iff.mp h
        cases heq
        rw [tokens_of_members htree hp, Value.tokens_object, List.cons_append, List.append_assoc]
        rfl
      | _ => exact tokens_of_leaf h

/-! ## Values that are passed over -/

/-- A broken token is no scalar, so it is never passed over. -/
theorem ne_of_isScalar {t : Token} (h : isScalar t = true) : .broken ≠ t := by
  rintro rfl
  cases h

/-- What is passed over is a stretch of the tokens, none of them broken, and is passed over whatever
follows it.  The frames are the arrays and objects that are still open, and the induction follows
the recursion over tokens, frames and what is expected next. -/
theorem exists_stretch_of_skipFrom {fs : List Frame} {e : Expect}
    (h : skipFrom fs e ts = .ok rest) :
    ∃ taken, ts = taken ++ rest ∧ .broken ∉ taken ∧
      ∀ more, skipFrom fs e (taken ++ more) = .ok more := by
  fun_induction skipFrom fs e ts
  all_goals try cases h
  all_goals
    first
    -- One token is passed, and then what the induction speaks of.
    | rename_i ih
      obtain ⟨taken, rfl, hbroken, hmore⟩ := ih h
      exact ⟨_ :: taken, rfl, by simp_all [ne_of_isScalar], fun more => by simp [skipFrom, *]⟩
    -- The last token has been passed.
    | exact ⟨[_], rfl, by simp_all [ne_of_isScalar], fun more => by simp [skipFrom, *]⟩

end Marketplace.Json.Decoder
