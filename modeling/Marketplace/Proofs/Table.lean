import Marketplace.Table
set_option autoImplicit false

/-!
# Tables: rows, indexes and references

What the operations on tables do to properties of rows.  `Table.All` holds of every row,
`Table.Indexes` says that one table is the index of another by a key of its rows, `Table.Keeps` that
one table still has every row of another, and `Table.AgreeOn` that two tables have the same rows of
some kind.
-/

namespace Marketplace.Table

variable {κ α β γ : Type}

/-! ## Entries and rows -/

/-- A table is the sequence of its entries; that no key occurs twice is a proof and adds nothing. -/
theorem eq_of_entries {t u : Table κ α} (h : t.entries = u.entries) : t = u := by
  cases t
  cases u
  cases h
  rfl

/-- What a test does not let pass is the rest. -/
theorem size_filter_add (t : Table κ α) (p : κ → α → Bool) :
    (t.filter p).size + (t.filter fun k a => !p k a).size = t.size := by
  have hsplit := List.length_eq_countP_add_countP (l := t.entries) fun e => p e.1 e.2
  simp only [List.countP_eq_length_filter, Bool.not_eq_true, Bool.decide_eq_false] at hsplit
  exact hsplit.symm

theorem mapValues_mapValues (t : Table κ α) (f : κ → α → β) (g : κ → β → γ) :
    (t.mapValues f).mapValues g = t.mapValues fun k a => g k (f k a) := by
  apply eq_of_entries
  simp only [mapValues, List.map_map, Function.comp_def]

variable [DecidableEq κ]

theorem lookup_eq_some_iff {k : κ} {a : α} {es : List (κ × α)} (h : (es.map Prod.fst).Nodup) :
    lookup k es = some a ↔ (k, a) ∈ es := by
  induction es with
  | nil => simp [lookup]
  | cons e es ih =>
    obtain ⟨l, b⟩ := e
    rw [List.map_cons, List.nodup_cons] at h
    by_cases hl : l = k
    · subst hl
      have habsent : (l, a) ∉ es := by
        intro hm
        exact h.1 (List.mem_map.mpr ⟨(l, a), hm, rfl⟩)
      simp [lookup, habsent, eq_comm]
    · simp [lookup, hl, Ne.symm hl, ih h.2]

/-- The entries of a table are its rows with their keys. -/
theorem mem_entries_iff {t : Table κ α} {k : κ} {a : α} :
    (k, a) ∈ t.entries ↔ t.get? k = some a :=
  (lookup_eq_some_iff t.keys_nodup).symm

theorem mem_values_iff {t : Table κ α} {a : α} : a ∈ t.values ↔ ∃ k, t.get? k = some a := by
  simp only [values, List.mem_map, Prod.exists, mem_entries_iff]
  constructor
  · rintro ⟨k, b, hb, rfl⟩
    exact ⟨k, hb⟩
  · rintro ⟨k, hk⟩
    exact ⟨k, a, hk, rfl⟩

theorem contains_iff {t : Table κ α} {k : κ} : t.contains k = true ↔ ∃ a, t.get? k = some a :=
  Option.isSome_iff_exists

theorem contains_of_get? {t : Table κ α} {k : κ} {a : α} (h : t.get? k = some a) :
    t.contains k = true :=
  contains_iff.mpr ⟨a, h⟩

theorem contains_eq_false_iff {t : Table κ α} {k : κ} :
    t.contains k = false ↔ t.get? k = none :=
  Option.isSome_eq_false_iff.trans Option.isNone_iff_eq_none

@[simp] theorem contains_insert (t : Table κ α) (k l : κ) (a : α) :
    (t.insert k a).contains l = (decide (k = l) || t.contains l) := by
  by_cases h : k = l <;> simp [contains, h]

@[simp] theorem contains_modify (t : Table κ α) (k l : κ) (f : α → α) :
    (t.modify k f).contains l = t.contains l := by
  by_cases h : l = k <;> simp [contains, h]

/-- A filter shows the row of a key if the row passes. -/
theorem get?_filter (t : Table κ α) (p : κ → α → Bool) (k : κ) :
    (t.filter p).get? k = (t.get? k).filter (p k) := by
  apply Option.ext
  intro a
  rw [← mem_entries_iff, Option.filter_eq_some_iff, ← mem_entries_iff]
  simp [filter]

theorem get?_filter_eq_some_iff {t : Table κ α} {p : κ → α → Bool} {k : κ} {a : α} :
    (t.filter p).get? k = some a ↔ t.get? k = some a ∧ p k a = true := by
  rw [get?_filter, Option.filter_eq_some_iff]

/-- Two tests that agree on all rows let the same ones pass. -/
theorem filter_congr {t : Table κ α} {p q : κ → α → Bool}
    (h : ∀ k a, t.get? k = some a → p k a = q k a) : t.filter p = t.filter q := by
  apply eq_of_entries
  exact List.filter_congr fun e he => h e.1 e.2 (mem_entries_iff.mp he)

theorem mapValues_congr {t : Table κ α} {f g : κ → α → β}
    (h : ∀ k a, t.get? k = some a → f k a = g k a) : t.mapValues f = t.mapValues g := by
  apply eq_of_entries
  exact List.map_congr_left fun e he => congrArg (Prod.mk e.1) (h e.1 e.2 (mem_entries_iff.mp he))

theorem mapValues_eq_self {t : Table κ α} {f : κ → α → α}
    (h : ∀ k a, t.get? k = some a → f k a = a) : t.mapValues f = t := by
  rw [mapValues_congr h]
  apply eq_of_entries
  exact List.map_id _

/-- A row in the place of an old one is a change of that one. -/
theorem insert_eq_modify {t : Table κ α} {k : κ} {a : α} (h : t.get? k = some a) (f : α → α) :
    t.insert k (f a) = t.modify k f := by
  have hput : ∀ es : List (κ × α), (es.map Prod.fst).Nodup → lookup k es = some a →
      put k (f a) es = es.map fun e => (e.1, if e.1 = k then f e.2 else e.2) := by
    intro es hnodup hl
    induction es with
    | nil => cases hl
    | cons e es ih =>
      obtain ⟨l, b⟩ := e
      rw [List.map_cons, List.nodup_cons] at hnodup
      by_cases hk : l = k
      · subst hk
        have hrest : (es.map fun e => (e.1, if e.1 = l then f e.2 else e.2)) = es := by
          refine (List.map_congr_left fun e he => ?_).trans (List.map_id es)
          have hne : e.1 ≠ l := fun heq => hnodup.1 (heq ▸ List.mem_map.mpr ⟨e, he, rfl⟩)
          rw [if_neg hne]
          rfl
        simp only [lookup, if_true, Option.some.injEq] at hl
        simp only [put, if_true, List.map_cons, hl, hrest]
      · simp only [lookup, hk, if_false] at hl
        simp only [put, hk, if_false, List.map_cons, ih hnodup.2 hl]
  apply eq_of_entries
  exact hput t.entries t.keys_nodup h

theorem filter_eq_self {t : Table κ α} {p : κ → α → Bool}
    (h : ∀ k a, t.get? k = some a → p k a = true) : t.filter p = t := by
  apply eq_of_entries
  exact List.filter_eq_self.mpr fun e he => h e.1 e.2 (mem_entries_iff.mp he)

/-- A key that had no row gets its row at the end. -/
theorem entries_insert_new {t : Table κ α} {k : κ} {a : α} (h : t.get? k = none) :
    (t.insert k a).entries = t.entries ++ [(k, a)] := by
  have hput : ∀ es : List (κ × α), lookup k es = none → put k a es = es ++ [(k, a)] := by
    intro es
    induction es with
    | nil => intro _; rfl
    | cons e es ih =>
      obtain ⟨l, b⟩ := e
      intro hl
      by_cases hk : l = k
      · simp [lookup, hk] at hl
      · simp only [lookup, hk, if_false] at hl
        simp [put, hk, ih hl]
  exact hput t.entries h

/-! ## Properties of every row -/

/-- Every row has the property. -/
def All (t : Table κ α) (P : κ → α → Prop) : Prop := ∀ k a, t.get? k = some a → P k a

section All

variable {t : Table κ α} {P Q : κ → α → Prop}

theorem All.empty : (empty : Table κ α).All P := by
  intro k a h
  simp at h

theorem All.imp (h : t.All P) (hPQ : ∀ k a, P k a → Q k a) : t.All Q :=
  fun k a ha => hPQ k a (h k a ha)

theorem All.insert (h : t.All P) {k : κ} {a : α} (ha : P k a) : (t.insert k a).All P := by
  intro l b hl
  rw [get?_insert] at hl
  split at hl
  · rename_i hk
    subst hk
    cases hl
    exact ha
  · exact h l b hl

theorem All.filter (h : t.All P) (p : κ → α → Bool) : (t.filter p).All P := by
  intro k a ha
  exact h k a (get?_filter_eq_some_iff.mp ha).1

theorem All.modify (h : t.All P) {k : κ} {f : α → α} (hf : ∀ a, P k a → P k (f a)) :
    (t.modify k f).All P := by
  intro l b hl
  rw [get?_modify] at hl
  split at hl
  · rename_i hk
    subst hk
    obtain ⟨a, ha, rfl⟩ := Option.map_eq_some_iff.mp hl
    exact hf a (h l a ha)
  · exact h l b hl

end All

/-! ## Indexes -/

/-- The first table is the index of the second one by a key of its rows: it leads from each key to
the row that has it, and has no other entries. -/
def Indexes [DecidableEq β] (x : Table β κ) (t : Table κ α) (key : α → β) : Prop :=
  ∀ b k, x.get? b = some k ↔ ∃ a, t.get? k = some a ∧ key a = b

section Indexes

variable [DecidableEq β] {x : Table β κ} {t : Table κ α} {key : α → β}

theorem Indexes.empty : (empty : Table β κ).Indexes (Table.empty : Table κ α) key := by
  intro b k
  simp

/-- Two rows of one key are the same row. -/
theorem Indexes.key_injective (h : x.Indexes t key) {k l : κ} {a b : α}
    (ha : t.get? k = some a) (hb : t.get? l = some b) (hkey : key a = key b) : k = l := by
  have hk := (h (key b) k).mpr ⟨a, ha, hkey⟩
  have hl := (h (key b) l).mpr ⟨b, hb, rfl⟩
  rw [hk] at hl
  exact Option.some.inj hl

/-- The index leads nowhere from a key that no row has. -/
theorem Indexes.get?_eq_none (h : x.Indexes t key) {b : β}
    (hnone : ∀ k a, t.get? k = some a → key a ≠ b) : x.get? b = none := by
  refine Option.eq_none_iff_forall_ne_some.mpr fun k hk => ?_
  obtain ⟨a, ha, hkey⟩ := (h b k).mp hk
  exact hnone k a ha hkey

/-- A row under a new key, with an entry for it, keeps the index. -/
theorem Indexes.insert (h : x.Indexes t key) {k : κ} {a : α} (hk : t.get? k = none)
    (hkey : x.get? (key a) = none) :
    (x.insert (key a) k).Indexes (t.insert k a) key := by
  intro b l
  rw [get?_insert]
  constructor
  · intro hx
    split at hx
    · rename_i hb
      cases hx
      exact ⟨a, by simp, hb⟩
    · obtain ⟨c, hc, rfl⟩ := (h b l).mp hx
      have hlk : k ≠ l := by
        rintro rfl
        rw [hk] at hc
        cases hc
      exact ⟨c, by rw [get?_insert, if_neg hlk, hc], rfl⟩
  · rintro ⟨c, hc, rfl⟩
    rw [get?_insert] at hc
    split at hc
    · rename_i hkl
      cases hc
      simp [hkl]
    · have hx := (h (key c) l).mpr ⟨c, hc, rfl⟩
      have hne : key a ≠ key c := by
        intro he
        rw [he, hx] at hkey
        cases hkey
      rw [if_neg hne, hx]

/-- A change that leaves the key of a row alone keeps the index. -/
theorem Indexes.modify (h : x.Indexes t key) {k : κ} {f : α → α} (hf : ∀ a, key (f a) = key a) :
    x.Indexes (t.modify k f) key := by
  intro b l
  rw [h b l, get?_modify]
  split
  · simp only [Option.map_eq_some_iff]
    constructor
    · rintro ⟨a, ha, rfl⟩
      exact ⟨f a, ⟨a, ha, rfl⟩, hf a⟩
    · rintro ⟨_, ⟨a, ha, rfl⟩, rfl⟩
      exact ⟨a, ha, (hf a).symm⟩
  · rfl

end Indexes

/-! ## Kept rows -/

/-- The second table has every row of the first one. -/
def Keeps (t u : Table κ α) : Prop := ∀ k a, t.get? k = some a → u.get? k = some a

section Keeps

variable {t u v : Table κ α}

theorem Keeps.refl (t : Table κ α) : t.Keeps t := fun _ _ h => h

theorem Keeps.trans (h : t.Keeps u) (h' : u.Keeps v) : t.Keeps v :=
  fun k a ha => h' k a (h k a ha)

/-- A row under a new key leaves all others where they are. -/
theorem Keeps.insert {k : κ} {a : α} (hk : t.get? k = none) : t.Keeps (t.insert k a) := by
  intro l b hb
  have hne : k ≠ l := by
    rintro rfl
    rw [hk] at hb
    cases hb
  rw [get?_insert, if_neg hne, hb]

/-- A key that had a row has one still. -/
theorem Keeps.contains (h : t.Keeps u) {k : κ} (hk : t.contains k = true) :
    u.contains k = true := by
  obtain ⟨a, ha⟩ := contains_iff.mp hk
  exact contains_of_get? (h k a ha)

end Keeps

/-! ## Rows of some kind -/

/-- The two tables have the same rows of the kind. -/
def AgreeOn (t u : Table κ α) (kind : α → Prop) : Prop :=
  ∀ k a, kind a → (u.get? k = some a ↔ t.get? k = some a)

section AgreeOn

variable {t u v : Table κ α} {kind : α → Prop}

theorem AgreeOn.refl (t : Table κ α) (kind : α → Prop) : t.AgreeOn t kind := fun _ _ _ => Iff.rfl

theorem AgreeOn.trans (h : t.AgreeOn u kind) (h' : u.AgreeOn v kind) : t.AgreeOn v kind :=
  fun k a ha => (h' k a ha).trans (h k a ha)

/-- A row of another kind is given to a key that had no row of the kind. -/
theorem AgreeOn.insert {k : κ} {a : α} (ha : ¬kind a)
    (hold : ∀ b, t.get? k = some b → ¬kind b) : t.AgreeOn (t.insert k a) kind := by
  intro l b hb
  rw [get?_insert]
  split
  · rename_i hk
    subst hk
    constructor
    · rintro ⟨⟩
      exact absurd hb ha
    · intro hthere
      exact absurd hb (hold b hthere)
  · rfl

/-- A row of another kind becomes one of another kind. -/
theorem AgreeOn.modify {k : κ} {f : α → α}
    (h : ∀ a, t.get? k = some a → ¬kind a ∧ ¬kind (f a)) : t.AgreeOn (t.modify k f) kind := by
  intro l b hb
  rw [get?_modify]
  split
  · rename_i hk
    subst hk
    rw [Option.map_eq_some_iff]
    constructor
    · rintro ⟨a, ha, rfl⟩
      exact absurd hb (h a ha).2
    · intro hthere
      exact absurd hb (h b hthere).1
  · rfl

/-- Rows of other kinds are taken away. -/
theorem AgreeOn.filter {p : κ → α → Bool}
    (h : ∀ k a, t.get? k = some a → kind a → p k a = true) : t.AgreeOn (t.filter p) kind := by
  intro k a ha
  rw [get?_filter_eq_some_iff]
  exact ⟨And.left, fun hthere => ⟨hthere, h k a hthere ha⟩⟩

/-- The rows that pass a test are the same, and rows of the kind do. -/
theorem AgreeOn.of_filter_eq {p : κ → α → Bool} (h : t.filter p = u.filter p)
    (hp : ∀ k a, kind a → p k a = true) : t.AgreeOn u kind := by
  intro k a ha
  have hsame : (u.filter p).get? k = some a ↔ (t.filter p).get? k = some a := by rw [h]
  simpa only [get?_filter_eq_some_iff, hp k a ha, and_true] using hsame

/-- Where only rows of the kind count, a key has the same row. -/
theorem AgreeOn.filter_get? (h : t.AgreeOn u kind) {p : α → Bool} (hp : ∀ a, p a = true → kind a)
    (k : κ) : (u.get? k).filter p = (t.get? k).filter p := by
  apply Option.ext
  intro a
  simp only [Option.filter_eq_some_iff]
  exact and_congr_left fun ha => h k a (hp a ha)

/-- Tables that agree on rows of every kind show the same row under each key. -/
theorem AgreeOn.get?_eq (h : t.AgreeOn u fun _ => True) (k : κ) : u.get? k = t.get? k := by
  apply Option.ext
  intro a
  exact h k a trivial

/-- Both tables have the same rows that pass a test which only rows of the kind pass, if not in the
same sequence. -/
theorem AgreeOn.perm_filter (h : t.AgreeOn u kind) {p : κ → α → Bool}
    (hp : ∀ k a, p k a = true → kind a) : (u.filter p).entries.Perm (t.filter p).entries := by
  have hnodup : ∀ v : Table κ α, v.entries.Nodup := fun v =>
    List.Pairwise.of_map Prod.fst (fun a b hne heq => hne (congrArg Prod.fst heq)) v.keys_nodup
  refine (List.perm_ext_iff_of_nodup (hnodup _) (hnodup _)).mpr fun ⟨k, a⟩ => ?_
  simp only [mem_entries_iff, get?_filter_eq_some_iff]
  exact and_congr_left fun ha => h k a (hp k a ha)

theorem AgreeOn.size_filter (h : t.AgreeOn u kind) {p : κ → α → Bool}
    (hp : ∀ k a, p k a = true → kind a) : (u.filter p).size = (t.filter p).size :=
  (h.perm_filter hp).length_eq

end AgreeOn

end Marketplace.Table
