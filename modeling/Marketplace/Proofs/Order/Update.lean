import Mathlib.Data.List.Forall2
import Marketplace.Proofs.Json.Yields
import Marketplace.Proofs.Order.Request
set_option autoImplicit false

/-!
# Entries that set quantities

Which values of a request set the quantity of an item: objects that name the item and the quantity,
as they should, and also arrays of just these two numbers; no other value does
(`UpdateRequest.entries_read`).  An array is read as an entry because a record is read from the
items of an array as well (`Json.Decoder.itemsInto`), although only objects are meant
(`UpdateRequest.exists_array_wellFormed`).

Entries are first kept as they come, and only judged afterwards, so reading a request says of each
entry what its two members show.  The reader takes the members in any order and skips all others;
the state that it is in after some of them is described by what is shown so far (`Shown`).
-/

namespace Marketplace

open Json (Value Decoder Fault)

namespace Json.Value

/-- The value sets the quantity of an item: it is an object with both numbers as its members, or an
array of both. -/
def SetsQuantity (v : Value) (item : OrderItemId) (quantity : Int) : Prop :=
  (∃ a b, v.member? "id" = some a ∧ v.member? "quantity" = some b ∧
      a.IsPositive item.value ∧ b.IsPositive quantity) ∨
    ∃ a b, v = .array [a, b] ∧ a.IsPositive item.value ∧ b.IsPositive quantity

variable {v : Value} {n : Int}

/-- Members of one name are only dropped inside of objects, which are no numbers. -/
theorem isPositive_unify : v.unify.IsPositive n ↔ v.IsPositive n := by
  unfold IsPositive
  cases v with
  | array vs => simp [unify]
  | object ms => simp [unify]
  | _ => rfl

end Json.Value

/-- There is a value, and it is the positive number. -/
def ShowsPositive (o : Option Value) (n : Int) : Prop := ∃ v, o = some v ∧ v.IsPositive n

/-- A member that is missing shows no number. -/
theorem not_showsPositive_none (n : Int) : ¬ShowsPositive none n := by
  intro h
  obtain ⟨v, hv, -⟩ := h
  cases hv

/-- A member that may be `null` is read, and shows the positive number that it is, or it is none. -/
theorem onTree_option_cases (depth : Nat) (v : Value) :
    (∃ o, (Decoder.option .value).onTree depth v = .ok o ∧
        ∀ n, ShowsPositive o n ↔ v.IsPositive n) ∨
      ((∃ e, (Decoder.option .value).onTree depth v = .error e) ∧ ∀ n, ¬v.IsPositive n) := by
  rw [Decoder.onTree_option Decoder.isFramed_value, Decoder.onTree_value, Decoder.ofDepth]
  by_cases hnull : v.isNull = true
  · refine Or.inl ⟨none, by rw [if_pos hnull], ?_⟩
    intro n
    refine iff_of_false (not_showsPositive_none n) ?_
    intro hn
    rw [hn.1] at hnull
    cases hnull
  · rw [if_neg hnull]
    by_cases hdepth : v.depth ≤ depth
    · rw [if_pos hdepth]
      refine Or.inl ⟨some v.unify, rfl, ?_⟩
      intro n
      simp [ShowsPositive, Value.isPositive_unify]
    · rw [if_neg hdepth]
      refine Or.inr ⟨⟨_, rfl⟩, ?_⟩
      intro n hn
      rw [hn.1] at hdepth
      exact hdepth (Nat.zero_le depth)

namespace UpdateInput

/-- The member that names the item. -/
def idField : Decoder.Field UpdateInput := .nullable "id" .value fun v u => { u with id := v }

/-- The member that holds the quantity. -/
def quantityField : Decoder.Field UpdateInput :=
  .nullable "quantity" .value fun v u => { u with quantity := v }

/-- The members of an entry. -/
def fields : List (Decoder.Field UpdateInput) := [idField, quantityField]

theorem decoder_eq : decoder = Decoder.record ⟨none, none⟩ fields := rfl

/-- Both members are values of their own, so where one ends the next one begins. -/
theorem framed_fields : ∀ f ∈ fields, f.read.IsFramed := by
  intro f hf
  simp only [fields, List.mem_cons, List.not_mem_nil, or_false] at hf
  rcases hf with rfl | rfl
  · exact Decoder.isFramed_nullable Decoder.isFramed_value "id" _
  · exact Decoder.isFramed_nullable Decoder.isFramed_value "quantity" _

/-- Members of other names are skipped. -/
theorem findField_of_ne {k : String} (hid : k ≠ "id") (hquantity : k ≠ "quantity") :
    Decoder.findField fields k = none := by
  simp [Decoder.findField, fields, idField, quantityField, Decoder.Field.nullable, hid, hquantity]

/-- An entry is well formed if both of its members show positive numbers. -/
theorem wellFormed?_iff {input : UpdateInput} {x : OrderItemId × Int} :
    input.wellFormed? = some x ↔
      ShowsPositive input.id x.1.value ∧ ShowsPositive input.quantity x.2 := by
  rw [wellFormed?_eq_some_iff]
  constructor
  · rintro ⟨v, q, hv, hid, hq, hquantity⟩
    exact ⟨⟨v, hv, hid⟩, q, hq, hquantity⟩
  · rintro ⟨⟨v, hv, hid⟩, q, hq, hquantity⟩
    exact ⟨v, q, hv, hid, hq, hquantity⟩

/-- The result is an entry that sets the quantity of an item. -/
def Sets (r : Except Fault UpdateInput) (x : OrderItemId × Int) : Prop :=
  ∃ input, r = .ok input ∧ input.wellFormed? = some x

/-- What is not read sets nothing. -/
theorem not_sets_error (e : Fault) (x : OrderItemId × Int) : ¬Sets (.error e) x := by
  intro h
  obtain ⟨input, hinput, -⟩ := h
  cases hinput

/-- An entry that is read sets a quantity exactly if both of its members show positive numbers. -/
theorem sets_ok {input : UpdateInput} {x : OrderItemId × Int} :
    Sets (.ok input) x ↔ ShowsPositive input.id x.1.value ∧ ShowsPositive input.quantity x.2 := by
  rw [Sets]
  simp only [Except.ok.injEq, exists_eq_left']
  exact wellFormed?_iff

/-- After the members have been read, what the one of a name shows is the positive number. -/
def Shown (name : String) (ms : List (String × Value)) (old : Option Value) (n : Int) : Prop :=
  match Value.lookup name ms with
  | some v => v.IsPositive n
  | none => ShowsPositive old n

theorem shown_cons_self (name : String) (v : Value) (ms : List (String × Value))
    (old : Option Value) (n : Int) : Shown name ((name, v) :: ms) old n ↔ v.IsPositive n := by
  simp [Shown, Value.lookup]

theorem shown_cons_of_ne {name k : String} (hk : k ≠ name) (v : Value)
    (ms : List (String × Value)) (old : Option Value) (n : Int) :
    Shown name ((k, v) :: ms) old n ↔ Shown name ms old n := by
  simp [Shown, Value.lookup, hk]

theorem shown_of_notMem {name : String} {ms : List (String × Value)}
    (h : name ∉ ms.map Prod.fst) (old : Option Value) (n : Int) :
    Shown name ms old n ↔ ShowsPositive old n := by
  induction ms with
  | nil => exact Iff.rfl
  | cons m ms ih =>
    rw [List.map_cons, List.mem_cons, not_or] at h
    exact (shown_cons_of_ne (Ne.symm h.1) m.2 ms old n).trans (ih h.2)

/-- A member is read and then the others, if it can be read at all. -/
theorem sets_bind {name : String} {depth : Nat} {v : Value}
    {set : Option Value → UpdateInput → UpdateInput}
    {next : (UpdateInput → UpdateInput) → Except Fault UpdateInput} {x : OrderItemId × Int}
    {n : Int} {p : Prop} (hnext : ∀ o, Sets (next (set o)) x ↔ ShowsPositive o n ∧ p) :
    Sets (((Decoder.Field.nullable name .value set).read.onTree depth v).bind next) x ↔
      v.IsPositive n ∧ p := by
  have hread : (Decoder.Field.nullable name .value set).read.onTree depth v =
      ((Decoder.option .value).onTree depth v).map set :=
    Decoder.onTree_map Decoder.isFramed_value.option set depth v
  rw [hread]
  rcases onTree_option_cases depth v with ⟨o, ho, hshows⟩ | ⟨⟨e, he⟩, hnot⟩
  · rw [ho, ← hshows n, ← hnext o]
    exact Iff.rfl
  · rw [he]
    exact iff_of_false (not_sets_error e x) fun h => hnot n h.1

/-- The members of an object set the quantity if the ones named `id` and `quantity` show the
numbers. -/
theorem sets_membersInto {depth : Nat} {ms : List (String × Value)}
    (hms : (ms.map Prod.fst).Nodup) {seen : List Nat} (u : UpdateInput)
    (hid : 0 ∈ seen → "id" ∉ ms.map Prod.fst)
    (hquantity : 1 ∈ seen → "quantity" ∉ ms.map Prod.fst) (x : OrderItemId × Int) :
    Sets (Decoder.membersInto fields Decoder.ignore depth seen u ms) x ↔
      Shown "id" ms u.id x.1.value ∧ Shown "quantity" ms u.quantity x.2 := by
  -- A field that has been seen is not named again, and its value is in the entry as read so far.
  induction ms generalizing seen u with
  | nil =>
    exact sets_ok
  | cons m ms ih =>
    obtain ⟨k, v⟩ := m
    rw [List.map_cons, List.nodup_cons] at hms
    obtain ⟨hk, hms⟩ := hms
    simp only [List.map_cons, List.mem_cons, not_or] at hid hquantity
    by_cases hkid : k = "id"
    · subst hkid
      have hnew : 0 ∉ seen := fun hmem => (hid hmem).1 rfl
      rw [Decoder.membersInto_field (f := idField) rfl hnew, shown_cons_self,
        shown_cons_of_ne (by decide)]
      refine sets_bind fun o => ?_
      rw [ih hms _ (fun _ => hk) (fun hmem => ?_), shown_of_notMem hk]
      exact (hquantity ((List.mem_cons.mp hmem).resolve_left (by decide))).2
    · by_cases hkquantity : k = "quantity"
      · subst hkquantity
        have hnew : 1 ∉ seen := fun hmem => (hquantity hmem).1 rfl
        rw [Decoder.membersInto_field (f := quantityField) rfl hnew, shown_cons_self,
          shown_cons_of_ne (by decide), and_comm]
        refine sets_bind fun o => ?_
        rw [ih hms _ (fun hmem => ?_) (fun _ => hk), shown_of_notMem hk, and_comm]
        exact (hid ((List.mem_cons.mp hmem).resolve_left (by decide))).2
      · rw [Decoder.membersInto_ignore (findField_of_ne hkid hkquantity),
          shown_cons_of_ne hkid, shown_cons_of_ne hkquantity]
        exact ih hms u (fun hmem => (hid hmem).2) (fun hmem => (hquantity hmem).2)

/-- After the number of the item, an array sets the quantity if it ends with that. -/
theorem sets_lastItem (depth : Nat) (o : Option Value) (vs : List Value) (x : OrderItemId × Int) :
    Sets (Decoder.itemsInto depth fields.tail ⟨o, none⟩ vs) x ↔
      ShowsPositive o x.1.value ∧ ∃ b, vs = [b] ∧ b.IsPositive x.2 := by
  cases vs with
  | nil => exact iff_of_false (not_sets_error _ x) (by simp)
  | cons b vs =>
    have hend (o' : Option Value) : Sets (Decoder.itemsInto depth [] (⟨o, o'⟩ : UpdateInput) vs) x ↔
        ShowsPositive o' x.2 ∧ ShowsPositive o x.1.value ∧ vs = [] := by
      cases vs with
      | nil => simp [Decoder.itemsInto, sets_ok, and_comm]
      | cons c vs => exact iff_of_false (not_sets_error _ x) (by simp)
    rw [fields, List.tail_cons, Decoder.itemsInto_cons]
    refine (sets_bind hend).trans ⟨?_, ?_⟩
    · rintro ⟨hb, ho, rfl⟩
      exact ⟨ho, b, rfl, hb⟩
    · rintro ⟨ho, b', hvs, hb⟩
      cases hvs
      exact ⟨hb, ho, rfl⟩

/-- The items of an array set the quantity if they are the two numbers. -/
theorem sets_itemsInto (depth : Nat) (vs : List Value) (x : OrderItemId × Int) :
    Sets (Decoder.itemsInto depth fields ⟨none, none⟩ vs) x ↔
      ∃ a b, vs = [a, b] ∧ a.IsPositive x.1.value ∧ b.IsPositive x.2 := by
  cases vs with
  | nil => exact iff_of_false (not_sets_error _ x) (by simp)
  | cons a vs =>
    rw [fields, Decoder.itemsInto_cons]
    refine (sets_bind fun o => sets_lastItem depth o vs x).trans ⟨?_, ?_⟩
    · rintro ⟨ha, b, rfl, hb⟩
      exact ⟨a, b, rfl, ha, hb⟩
    · rintro ⟨a', b, hvs, ha, hb⟩
      cases hvs
      exact ⟨ha, b, rfl, hb⟩

/-- What is not read is not well formed, so an entry is well formed if its value is read so. -/
theorem wellFormed?_ofValue_iff {v : Value} {x : OrderItemId × Int} :
    (ofValue v).wellFormed? = some x ↔
      Sets (Decoder.recordInto fields Decoder.ignore ⟨none, none⟩ Json.maxDepth v) x := by
  rw [ofValue, decoder_eq, (Decoder.IsFramed.record framed_fields _).ofTree_eq,
    Decoder.onTree_record framed_fields]
  generalize Decoder.recordInto fields Decoder.ignore ⟨none, none⟩ Json.maxDepth v = read
  cases read with
  | ok input =>
    rw [sets_ok]
    exact wellFormed?_iff
  | error e =>
    refine iff_of_false ?_ (not_sets_error e x)
    intro h
    cases h

theorem shown_none {name : String} {ms : List (String × Value)} {n : Int} :
    Shown name ms none n ↔ ∃ v, (Value.object ms).member? name = some v ∧ v.IsPositive n := by
  unfold Shown Value.member?
  dsimp only
  cases Value.lookup name ms with
  | none => simp [not_showsPositive_none]
  | some v => simp

/-- An entry is well formed exactly if its value sets a quantity. -/
theorem wellFormed?_ofValue {v : Value} (hv : v.NamesOnce) (x : OrderItemId × Int) :
    (ofValue v).wellFormed? = some x ↔ v.SetsQuantity x.1 x.2 := by
  rw [wellFormed?_ofValue_iff]
  cases v with
  | array vs =>
    refine (sets_itemsInto 126 vs x).trans ?_
    simp [Value.SetsQuantity, Value.member?]
  | object ms =>
    have hmembers : Sets (Decoder.membersInto fields Decoder.ignore 126 [] ⟨none, none⟩ ms) x ↔ _ :=
      sets_membersInto (hv ms rfl) ⟨none, none⟩ (by simp) (by simp) x
    rw [shown_none, shown_none] at hmembers
    refine hmembers.trans ⟨?_, ?_⟩
    · rintro ⟨⟨a, ha, hid⟩, b, hb, hquantity⟩
      exact Or.inl ⟨a, b, ha, hb, hid, hquantity⟩
    · rintro (⟨a, b, ha, hb, hid, hquantity⟩ | ⟨a, b, hvs, -⟩)
      · exact ⟨⟨a, ha, hid⟩, b, hb, hquantity⟩
      · cases hvs
  | _ =>
    refine iff_of_false (not_sets_error .mismatch x) ?_
    simp [Value.SetsQuantity, Value.member?]

end UpdateInput

/-- What is true of whatever the decoder of an item takes is true of the items that come inline. -/
theorem Items.yields_decoder {α : Type} {d : Decoder α} {P : α → Prop} (h : d.Yields P) :
    (decoder d).Yields fun items => ∀ xs, items = .inline xs → ∀ x ∈ xs, P x := by
  refine Decoder.yields_filterMap fun tree items hread xs hxs => ?_
  subst hxs
  split at hread
  · rename_i xs' hlist
    cases hread
    exact (Decoder.yields_list h).ofTree hlist
  · split at hread <;> cases hread

namespace UpdateRequest

variable {r : UpdateRequest} {vs : List Value} {inputs : List UpdateInput} {body : String}

/-- The request lists the values, inline or in a text. -/
def Lists (r : UpdateRequest) (vs : List Value) : Prop :=
  r.items = some (.inline vs) ∨
    ∃ s, r.items = some (.encoded s) ∧ (Decoder.list .value).run s = .ok vs

/-- There is one entry for each value that the request lists. -/
theorem entries_eq_ok_iff :
    r.entries = .ok inputs ↔ ∃ vs, r.Lists vs ∧ vs.map UpdateInput.ofValue = inputs := by
  unfold entries Lists
  cases hitems : r.items with
  | none => simp
  | some items =>
    rw [Except.map_eq_ok_iff]
    refine exists_congr fun vs => and_congr_left fun _ => ?_
    cases items with
    | inline ws => simp [Items.entries, eq_comm]
    | encoded s =>
      unfold Items.entries
      cases hrun : (Decoder.list .value).run s <;> simp [hrun]

/-- In a request that has been read, every object that is listed has each name once. -/
theorem namesOnce_of_lists (hr : decoder.run body = .ok r) (hvs : r.Lists vs) :
    ∀ v ∈ vs, v.NamesOnce := by
  rcases hvs with hinline | ⟨s, -, hrun⟩
  · have hrequest : decoder.Yields fun r =>
        ∀ items, r.items = some items → ∀ ws, items = .inline ws → ∀ v ∈ ws, v.NamesOnce := by
      refine Decoder.yields_record nofun fun f hf => ?_
      rw [List.mem_singleton.mp hf]
      exact Decoder.Field.keeps_nullable (Items.yields_decoder Decoder.yields_value)
        fun o r hread _ => hread
    exact hrequest.runTokens hr _ hinline vs rfl
  · exact (Decoder.yields_list Decoder.yields_value).runTokens hrun

/-- Whatever values a request lists, its entries are read, and an entry sets a quantity exactly if
its value does. -/
theorem entries_read (hr : decoder.run body = .ok r) (hvs : r.Lists vs) :
    ∃ inputs, r.entries = .ok inputs ∧
      List.Forall₂ (fun v input => ∀ x : OrderItemId × Int,
        UpdateInput.wellFormed? input = some x ↔ v.SetsQuantity x.1 x.2) vs inputs := by
  refine ⟨_, entries_eq_ok_iff.mpr ⟨vs, hvs, rfl⟩, ?_⟩
  rw [List.forall₂_map_right_iff, List.forall₂_same]
  intro v hv
  exact UpdateInput.wellFormed?_ofValue (namesOnce_of_lists hr hvs v hv)

/-- A request that lists an object and an array. -/
def mixedText : String := "\x7b\"items\": [\x7b\"id\": 1, \"quantity\": 5\x7d, [2, 3]]\x7d"

/-- What it lists. -/
def mixedValues : List Value :=
  [.object [("id", .int 1), ("quantity", .int 5)], .array [.int 2, .int 3]]

theorem run_mixedText : decoder.run mixedText = .ok ⟨some (.inline mixedValues)⟩ := by
  have htokens : Json.tokenize mixedText =
      (Value.object [("items", .array mixedValues)]).tokens := by
    decide +kernel
  rw [Decoder.run, htokens]
  rfl

theorem entries_read_mixedText : ∃ r inputs, decoder.run mixedText = .ok r ∧ r.Lists mixedValues ∧
    r.entries = .ok inputs ∧
      List.Forall₂ (fun v input => ∀ x : OrderItemId × Int,
        UpdateInput.wellFormed? input = some x ↔ v.SetsQuantity x.1 x.2) mixedValues inputs := by
  have hlists : UpdateRequest.Lists ⟨some (.inline mixedValues)⟩ mixedValues := Or.inl rfl
  obtain ⟨inputs, hentries, hsets⟩ := entries_read run_mixedText hlists
  exact ⟨_, inputs, run_mixedText, hlists, hentries, hsets⟩

/-- An array is no object, and still its entry is well formed. -/
theorem exists_array_wellFormed : ∃ r v input x,
    decoder.run "\x7b\"items\": [[1, 5]]\x7d" = .ok r ∧ r.Lists [v] ∧ r.entries = .ok [input] ∧
      UpdateInput.wellFormed? input = some x ∧ ∀ ms, v ≠ .object ms := by
  have htokens : Json.tokenize "\x7b\"items\": [[1, 5]]\x7d" =
      (Value.object [("items", .array [.array [.int 1, .int 5]])]).tokens := by
    decide +kernel
  refine ⟨⟨some (.inline [.array [.int 1, .int 5]])⟩, _, ⟨some (.int 1), some (.int 5)⟩, (⟨1⟩, 5),
    ?_, Or.inl rfl, rfl, rfl, nofun⟩
  rw [Decoder.run, htokens]
  rfl

end UpdateRequest

end Marketplace
