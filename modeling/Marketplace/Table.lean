set_option autoImplicit false

/-!
# Tables

Rows by key, in the order in which the keys were first inserted.  `Table.get?` is the view: each
operation says what it does to the row of every key.
-/

namespace Marketplace

/-- Rows by key; no key has two rows. -/
structure Table (κ α : Type) where
  entries : List (κ × α)
  keys_nodup : (entries.map Prod.fst).Nodup
  deriving DecidableEq, Repr

namespace Table

variable {κ α : Type}

/-- No rows. -/
def empty : Table κ α := ⟨[], List.nodup_nil⟩

instance : Inhabited (Table κ α) := ⟨empty⟩

/-- The keys. -/
def keys (t : Table κ α) : List κ := t.entries.map Prod.fst

/-- The rows. -/
def values (t : Table κ α) : List α := t.entries.map Prod.snd

/-- The number of rows. -/
def size (t : Table κ α) : Nat := t.entries.length

/-- The rows that a test of key and row lets pass. -/
def filter (t : Table κ α) (p : κ → α → Bool) : Table κ α :=
  ⟨t.entries.filter fun e => p e.1 e.2,
    List.Pairwise.sublist (List.filter_sublist.map Prod.fst) t.keys_nodup⟩

/-- Changes every row. -/
def mapValues {β : Type} (t : Table κ α) (f : κ → α → β) : Table κ β :=
  ⟨t.entries.map fun e => (e.1, f e.1 e.2), by
    simpa [List.map_map, Function.comp_def] using t.keys_nodup⟩

variable [DecidableEq κ]

/-- The row of a key in a list of entries. -/
def lookup (k : κ) : List (κ × α) → Option α
  | [] => none
  | (l, a) :: es => if l = k then some a else lookup k es

/-- The entries with the row of a key put into its old place, or at the end. -/
def put (k : κ) (a : α) : List (κ × α) → List (κ × α)
  | [] => [(k, a)]
  | (l, b) :: es => if l = k then (k, a) :: es else (l, b) :: put k a es

theorem mem_keys_put {k l : κ} {a : α} (es : List (κ × α)) :
    l ∈ (put k a es).map Prod.fst ↔ l = k ∨ l ∈ es.map Prod.fst := by
  induction es with
  | nil => simp [put]
  | cons e es ih =>
    obtain ⟨m, b⟩ := e
    by_cases h : m = k
    · subst h; simp [put]
    · simp only [put, h, if_false, List.map_cons, List.mem_cons, ih]
      exact or_left_comm

theorem nodup_put {k : κ} {a : α} (es : List (κ × α)) (h : (es.map Prod.fst).Nodup) :
    ((put k a es).map Prod.fst).Nodup := by
  induction es with
  | nil => simp [put]
  | cons e es ih =>
    obtain ⟨m, b⟩ := e
    simp only [List.map_cons, List.nodup_cons] at h
    by_cases hm : m = k
    · subst hm
      simpa [put] using h
    · simp only [put, hm, if_false, List.map_cons, List.nodup_cons]
      refine ⟨fun hk => ?_, ih h.2⟩
      rcases (mem_keys_put es).1 hk with rfl | hk
      · exact hm rfl
      · exact h.1 hk

/-- The row of a key. -/
def get? (t : Table κ α) (k : κ) : Option α := lookup k t.entries

/-- The key has a row. -/
def contains (t : Table κ α) (k : κ) : Bool := (t.get? k).isSome

/-- Gives a key its row. -/
def insert (t : Table κ α) (k : κ) (a : α) : Table κ α :=
  ⟨put k a t.entries, nodup_put t.entries t.keys_nodup⟩

/-- Changes the row of a key, if it has one. -/
def modify (t : Table κ α) (k : κ) (f : α → α) : Table κ α :=
  t.mapValues fun l a => if l = k then f a else a

@[simp]
theorem get?_empty (k : κ) : (empty : Table κ α).get? k = none := rfl

theorem lookup_put (k l : κ) (a : α) (es : List (κ × α)) :
    lookup l (put k a es) = if k = l then some a else lookup l es := by
  induction es with
  | nil => simp [put, lookup]
  | cons e es ih =>
    obtain ⟨m, b⟩ := e
    by_cases hm : m = k
    · subst hm
      by_cases hl : m = l <;> simp [put, lookup, hl]
    · by_cases hl : m = l
      · subst hl
        simp [put, lookup, hm, Ne.symm hm]
      · simp [put, lookup, hm, hl, ih]

@[simp]
theorem get?_insert (t : Table κ α) (k l : κ) (a : α) :
    (t.insert k a).get? l = if k = l then some a else t.get? l :=
  lookup_put k l a t.entries

theorem lookup_mapValues {β : Type} (f : κ → α → β) (l : κ) (es : List (κ × α)) :
    lookup l (es.map fun e => (e.1, f e.1 e.2)) = (lookup l es).map (f l) := by
  induction es with
  | nil => rfl
  | cons e es ih =>
    obtain ⟨m, b⟩ := e
    by_cases hm : m = l
    · subst hm; simp [lookup]
    · simp [lookup, hm, ih]

@[simp]
theorem get?_mapValues {β : Type} (t : Table κ α) (f : κ → α → β) (l : κ) :
    (t.mapValues f).get? l = (t.get? l).map (f l) :=
  lookup_mapValues f l t.entries

@[simp]
theorem get?_modify (t : Table κ α) (k l : κ) (f : α → α) :
    (t.modify k f).get? l = if l = k then (t.get? l).map f else t.get? l := by
  by_cases h : l = k <;> simp [modify, h]

end Table

end Marketplace
