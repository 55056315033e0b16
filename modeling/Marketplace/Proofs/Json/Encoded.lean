import Marketplace.Proofs.Json.Spelling
set_option autoImplicit false

/-!
# Values that decoders read

What a decoder reads a value as, whatever follows it (`Decoder.Reads`).  There is one lemma for each
way to make a decoder of others, so that a type with an encoder and a decoder is read back once the
members of its JSON form are (`Decoder.Fills`), and then also from the text (`Decoder.Reads.run`).

Where a value may be refused too, the lemmas are about what the decoder gives for it
(`Decoder.Gives`): an array gives what its items give in turn, and an object whose other members are
read gives what its last member does (`Decoder.LastDecides`).
-/

namespace Marketplace

/-- The number is a signed one of 64 bits.  Only such numbers are written by the encoders of this
library; a larger one would be written, but not read back. -/
def Signed64 (n : Int) : Prop := -2 ^ 63 ≤ n ∧ n < 2 ^ 63

instance (n : Int) : Decidable (Signed64 n) := inferInstanceAs (Decidable (_ ∧ _))

namespace Json

theorem Value.isSpelled_signed64 {n : Int} (h : Signed64 n) : (int n).IsSpelled :=
  isSpelled_int h.1 (Int.lt_trans h.2 (by decide))

namespace Value

theorem depth_le_of_mem {v : Value} {vs : List Value} (hv : v ∈ vs) {n : Nat}
    (h : itemsDepth vs ≤ n) : v.depth ≤ n := by
  induction vs with
  | nil => cases hv
  | cons w vs ih =>
    obtain ⟨hw, hvs⟩ := Nat.max_le.mp h
    rcases List.mem_cons.mp hv with rfl | hv
    · exact hw
    · exact ih hv hvs

theorem depth_array_le {vs : List Value} {n : Nat} (h : ∀ v ∈ vs, v.depth ≤ n) :
    (array vs).depth ≤ n + 1 := by
  refine Nat.add_le_add_right ?_ 1
  induction vs with
  | nil => exact Nat.zero_le n
  | cons v vs ih =>
    exact Nat.max_le.mpr ⟨h v List.mem_cons_self, ih fun w hw => h w (List.mem_cons_of_mem v hw)⟩

theorem depth_object_le {ms : List (String × Value)} {n : Nat} (h : ∀ m ∈ ms, m.2.depth ≤ n) :
    (object ms).depth ≤ n + 1 := by
  refine Nat.add_le_add_right ?_ 1
  induction ms with
  | nil => exact Nat.zero_le n
  | cons m ms ih =>
    exact Nat.max_le.mpr ⟨h m List.mem_cons_self, ih fun k hk => h k (List.mem_cons_of_mem m hk)⟩

end Value

namespace Decoder

variable {α β σ τ : Type} {d : Decoder α} {v : Value} {a : α}

/-- The decoder reads the value as `a` and leaves what follows it, unless the value nests too
deeply. -/
def Reads (d : Decoder α) (v : Value) (a : α) : Prop :=
  ∀ depth, v.depth ≤ depth → ∀ rest, d depth (v.tokens ++ rest) = .ok (a, rest)

/-- The decoder makes this of the value, be it what it is read as or a fault, and leaves what
follows it, unless the value nests too deeply. -/
def Gives (d : Decoder α) (v : Value) (x : Except Fault α) : Prop :=
  ∀ depth, v.depth ≤ depth → ∀ rest, d depth (v.tokens ++ rest) = x.map fun a => (a, rest)

theorem Reads.gives (h : d.Reads v a) : d.Gives v (.ok a) := h

/-- A decoder that is used on a tree gives what it gives for the tree's tokens. -/
theorem Gives.onTree {x : Except Fault α} (h : d.Gives v x) {depth : Nat} (hv : v.depth ≤ depth) :
    d.onTree depth v = x := by
  have hread := h depth hv []
  rw [List.append_nil] at hread
  rw [Decoder.onTree, hread]
  cases x <;> rfl

/-- What has been written of a value gives what the value gives.  The depth is bounded since readers
do not follow values of any depth, and the spelling is that of tokens that are read back. -/
theorem Gives.run {x : Except Fault α} (h : d.Gives v x) (hv : v.depth ≤ maxDepth)
    (hspelled : v.IsSpelled) : d.run v.render = x := by
  have hread := h maxDepth hv []
  rw [List.append_nil] at hread
  rw [Decoder.run, Value.tokenize_render hspelled, Decoder.runTokens, hread]
  cases x <;> rfl

theorem Reads.runTokens (h : d.Reads v a) (hv : v.depth ≤ maxDepth) :
    d.runTokens v.tokens = .ok a := by
  have hread := h maxDepth hv []
  rw [List.append_nil] at hread
  rw [Decoder.runTokens, hread]

theorem Reads.ofTree (h : d.Reads v a) (hv : v.depth ≤ maxDepth) : d.ofTree v = some a := by
  rw [Decoder.ofTree, h.runTokens hv]
  rfl

/-- What has been written of a value is read as the value is. -/
theorem Reads.run (h : d.Reads v a) (hv : v.depth ≤ maxDepth) (hspelled : v.IsSpelled) :
    d.run v.render = .ok a := h.gives.run hv hspelled

/-! ## Scalars -/

theorem reads_text (s : String) : text.Reads (.text s) s := fun _ _ _ => rfl

/-- An integer is read if it is in the range, and the range is the only thing that is asked for. -/
theorem reads_integer {r : Text.IntegerRange} {n : Int} (hlow : r.low ≤ n) (hhigh : n ≤ r.high) :
    (integer r).Reads (.int n) n := by
  intro depth _ rest
  have hn : r.contains n = true := by simp [Text.IntegerRange.contains, hlow, hhigh]
  change scalar _ depth (.number (some (.int n)) :: rest) = _
  simp only [scalar, hn, if_true]

theorem reads_signed64 {n : Int} (h : Signed64 n) : (integer .signed64).Reads (.int n) n :=
  reads_integer h.1 (Int.le_of_lt_add_one h.2)

/-- A tree is read as itself, with its members in their sequence. -/
theorem reads_tree (v : Value) : tree.Reads v v := by
  intro depth hv rest
  rw [tree_tokens, ofDepth, if_pos hv]
  rfl

theorem reads_skip (v : Value) : skip.Reads v () := fun depth _ rest => skip_tokens depth v rest

/-! ## Decoders made of others -/

/-- What a decoder refuses it still refuses when its results are mapped. -/
theorem Gives.map {x : Except Fault α} (h : d.Gives v x) (f : α → β) :
    (Decoder.map f d).Gives v (x.map f) := by
  intro depth hv rest
  rw [Decoder.map, h depth hv rest]
  cases x <;> rfl

theorem Reads.map (h : d.Reads v a) (f : α → β) : (Decoder.map f d).Reads v (f a) := h.gives.map f

theorem Reads.filterMap (h : d.Reads v a) {f : α → Option β} {b : β} (hf : f a = some b) :
    (Decoder.filterMap f d).Reads v b := by
  intro depth hv rest
  rw [Decoder.filterMap, h depth hv rest]
  simp only [hf]

theorem reads_natural {bits n : Nat} (h : n < 2 ^ bits) : (natural bits).Reads (.nat n) n := by
  have hhigh : (n : Int) ≤ (Text.IntegerRange.unsigned bits).high := by
    simp only [Text.IntegerRange.unsigned, Nat.pow_eq]
    omega
  exact (reads_integer (Int.natCast_nonneg n) hhigh).map Int.toNat

/-- Null is nothing, for any decoder. -/
theorem reads_option_null (d : Decoder α) : (option d).Reads .null none := fun _ _ _ => rfl

/-- What is not null is read as it is.  A value that is written as null would come back as nothing,
which is why this has to be asked. -/
theorem Reads.option (h : d.Reads v a) (hv : v.isNull = false) :
    (Decoder.option d).Reads v (some a) := by
  intro depth hdepth rest
  have hsome := h.map some depth hdepth rest
  cases v with
  | null => cases hv
  | _ => exact hsome

theorem reads_ofOption {toJson : α → Value} {o : Option α}
    (h : ∀ a, o = some a → d.Reads (toJson a) a ∧ (toJson a).isNull = false) :
    (option d).Reads (.ofOption toJson o) o := by
  cases o with
  | none => exact reads_option_null d
  | some a => exact (h a rfl).1.option (h a rfl).2

/-- Items that are treated alike make lists that are treated alike. -/
theorem mapM_congr {x y : β → Except Fault α} {bs : List β} (h : ∀ b ∈ bs, x b = y b) :
    bs.mapM x = bs.mapM y := by
  induction bs with
  | nil => rfl
  | cons b bs ih =>
    rw [List.mapM_cons, List.mapM_cons, h b List.mem_cons_self,
      ih fun c hc => h c (List.mem_cons_of_mem b hc)]

/-- All items are kept exactly if each of them is. -/
theorem mapM_eq_ok_self_iff {x : α → Except Fault α} {as : List α} :
    as.mapM x = .ok as ↔ ∀ a ∈ as, x a = .ok a := by
  induction as with
  | nil => exact iff_of_true rfl (List.forall_mem_nil _)
  | cons a as ih =>
    rw [List.mapM_cons, List.forall_mem_cons, ← ih]
    cases x a with
    | error e => simp [bind, Except.bind]
    | ok b => cases as.mapM x <;> simp [bind, Except.bind, pure, Except.pure]

/-- The items of an array give one after the other what they give.  So the first item that is
refused decides on the refusal of the array. -/
theorem gives_list {toJson : β → Value} {x : β → Except Fault α} {bs : List β}
    (h : ∀ b ∈ bs, d.Gives (toJson b) (x b)) :
    (list d).Gives (.array (bs.map toJson)) (bs.mapM x) := by
  intro depth hdepth rest
  rw [Value.tokens_array, List.cons_append, List.append_assoc]
  cases depth with
  | zero => exact absurd hdepth (Nat.not_succ_le_zero _)
  | succ depth =>
    replace hdepth : ∀ b ∈ bs, (toJson b).depth ≤ depth := fun b hb =>
      Value.depth_le_of_mem (List.mem_map_of_mem hb) (Nat.le_of_succ_le_succ hdepth)
    -- The loop over the items is that over their trees, since each of them is read whole.
    have hread : ∀ v ∈ bs.map toJson, ∀ rest,
        d depth (v.tokens ++ rest) = (d.onTree depth v).map fun a => (a, rest) := by
      intro v hv rest
      obtain ⟨b, hb, rfl⟩ := List.mem_map.mp hv
      rw [h b hb depth (hdepth b hb), (h b hb).onTree (hdepth b hb)]
    have hall : (bs.map toJson).mapM (d.onTree depth) = bs.mapM x := by
      rw [List.mapM_map]
      exact mapM_congr fun b hb => (h b hb).onTree (hdepth b hb)
    have hitems := items_itemRun hread
      (Value.length_lt_itemRun true (bs.map toJson) (.closeArray :: rest)) true rest
    rw [hall] at hitems
    exact hitems

/-- The items of an array are read one after the other. -/
theorem reads_list {toJson : α → Value} {as : List α} (h : ∀ a ∈ as, d.Reads (toJson a) a) :
    (list d).Reads (.array (as.map toJson)) as := by
  have hgives := gives_list (x := .ok) h
  rw [mapM_eq_ok_self_iff.mpr fun a _ => rfl] at hgives
  exact hgives

/-- A variant without anything to carry is written as its name alone. -/
theorem reads_oneOf_plain {variants : List (String × Variant α)} {name : String}
    (h : variants.lookup name = some (.plain a)) : (oneOf variants).Reads (.text name) a := by
  intro depth _ rest
  change oneOf variants depth (.text (some name) :: rest) = _
  simp only [oneOf, h]

/-- A variant that carries something is written as an object with its name as the only member. -/
theorem reads_oneOf_carrying {variants : List (String × Variant α)} {name : String}
    (h : variants.lookup name = some (.carrying d)) (hd : d.Reads v a) :
    (oneOf variants).Reads (.object [(name, v)]) a := by
  intro depth hdepth rest
  cases depth with
  | zero => exact absurd hdepth (Nat.not_succ_le_zero _)
  | succ depth =>
    have hv : v.depth ≤ depth := by
      simpa [Value.depth, Value.membersDepth] using hdepth
    have hread := hd depth hv (.closeObject :: rest)
    simp only [Value.tokens, Value.memberTokens, Value.separated, List.cons_append,
      List.append_assoc, List.nil_append, oneOf, h, afterColon, hread]

/-! ## Records

The members of an object are read one after the other, each into the field of its name.  `Fills`
follows the members and says what the record is after each of them, so that a record is read back by
one step for each of its members.
-/

theorem Reads.required (h : d.Reads v a) (name : String) (set : α → σ → σ) :
    (Field.required name d set).read.Reads v (set a) := h.map set

theorem Reads.defaulted (h : d.Reads v a) (name : String) (set : α → σ → σ) :
    (Field.defaulted name d set).read.Reads v (set a) := h.map set

theorem Gives.required {x : Except Fault α} (h : d.Gives v x) (name : String) (set : α → σ → σ) :
    (Field.required name d set).read.Gives v (x.map set) := h.map set

theorem Gives.defaulted {x : Except Fault α} (h : d.Gives v x) (name : String) (set : α → σ → σ) :
    (Field.defaulted name d set).read.Gives v (x.map set) := h.map set

theorem Reads.nullable {o : Option α} (h : (Decoder.option d).Reads v o) (name : String)
    (set : Option α → σ → σ) : (Field.nullable name d set).read.Reads v (set o) := h.map set

/-- The members of an object are read into a record one after the other: each one is that of a field
that has not been seen yet, or is read in another way, and in the end no field is missing. -/
inductive Fills (fields : List (Field σ)) (other : String → Option (Decoder (σ → σ))) :
    List Nat → σ → List (String × Value) → σ → Prop
  | done {seen : List Nat} {s : σ} (hseen : isComplete fields seen = true) :
    Fills fields other seen s [] s
  | field {seen : List Nat} {s t : σ} {k : String} {v : Value} {ms : List (String × Value)}
    {i : Nat} {f : Field σ} {set : σ → σ} (hf : findField fields k = some (i, f))
    (hi : seen.contains i = false) (hread : f.read.Reads v set)
    (hms : Fills fields other (i :: seen) (set s) ms t) : Fills fields other seen s ((k, v) :: ms) t
  | other {seen : List Nat} {s t : σ} {k : String} {v : Value} {ms : List (String × Value)}
    {d : Decoder (σ → σ)} {set : σ → σ} (hf : findField fields k = none) (hd : other k = some d)
    (hread : d.Reads v set) (hms : Fills fields other seen (set s) ms t) :
    Fills fields other seen s ((k, v) :: ms) t

/-- The last member of an object decides: those before it are read by their fields, and with it no
field is missing. -/
inductive LastDecides (fields : List (Field σ)) :
    List Nat → σ → List (String × Value) → Except Fault σ → Prop
  | last {seen : List Nat} {s : σ} {k : String} {v : Value} {i : Nat} {f : Field σ}
    {x : Except Fault (σ → σ)} {y : Except Fault σ} (hf : findField fields k = some (i, f))
    (hi : seen.contains i = false) (hread : f.read.Gives v x)
    (hall : isComplete fields (i :: seen) = true) (hset : x.map (fun set => set s) = y) :
    LastDecides fields seen s [(k, v)] y
  | field {seen : List Nat} {s : σ} {k : String} {v : Value} {ms : List (String × Value)}
    {i : Nat} {f : Field σ} {set : σ → σ} {x : Except Fault σ}
    (hf : findField fields k = some (i, f)) (hi : seen.contains i = false)
    (hread : f.read.Reads v set) (hms : LastDecides fields (i :: seen) (set s) ms x) :
    LastDecides fields seen s ((k, v) :: ms) x

section Records

variable {fields : List (Field σ)} {other : String → Option (Decoder (σ → σ))} {blank s t : σ}
  {ms : List (String × Value)}

/-- The member of a field that has not been seen is read into the record, and the field has been
seen then. -/
theorem recordMembers_field {k : String} {i : Nat} {f : Field σ} {set : σ → σ} {seen : List Nat}
    (hf : findField fields k = some (i, f)) (hi : seen.contains i = false)
    (hread : f.read.Reads v set) {depth : Nat} (hv : v.depth ≤ depth) (fuel : Nat) (first : Bool)
    (rest : List Token) :
    Decoder.recordMembers fields other depth (fuel + 1) first seen s
        (Value.memberRun first ((k, v) :: ms) ++ rest) =
      Decoder.recordMembers fields other depth fuel false (i :: seen) (set s)
        (Value.memberRun false ms ++ rest) := by
  rw [Decoder.recordMembers, nextMember_memberRun]
  simp only [hf, Option.any_some, hi, afterColon, hread depth hv, Option.toList_some,
    List.singleton_append]

/-- At the end of the object all fields that are required must have been seen. -/
theorem recordMembers_done {seen : List Nat} (hseen : isComplete fields seen = true)
    (depth fuel : Nat)
    (first : Bool) (rest : List Token) :
    Decoder.recordMembers fields other depth (fuel + 1) first seen s (.closeObject :: rest) =
      .ok (s, rest) := by
  have hclose : nextMember first (.closeObject :: rest) = .ok (.close rest) := by
    cases first <;> rfl
  simp only [Decoder.recordMembers, hclose, hseen, if_true]

/-- The members are read as they fill the record, by induction on that. -/
theorem Fills.recordMembers {seen : List Nat} (h : Fills fields other seen s ms t) {depth : Nat}
    (hdepth : Value.membersDepth ms ≤ depth) {fuel : Nat} (hfuel : ms.length < fuel) (first : Bool)
    (rest : List Token) :
    Decoder.recordMembers fields other depth fuel first seen s
      (Value.memberRun first ms ++ .closeObject :: rest) = .ok (t, rest) := by
  induction h generalizing fuel first with
  | done hseen =>
    obtain ⟨fuel, rfl⟩ := Nat.exists_eq_add_one.mpr hfuel
    exact recordMembers_done hseen depth fuel first rest
  | field hf hi hread hms ih =>
    obtain ⟨fuel, rfl⟩ := Nat.exists_eq_add_one.mpr (Nat.zero_lt_of_lt hfuel)
    obtain ⟨hv, hdepth⟩ := Nat.max_le.mp hdepth
    rw [recordMembers_field hf hi hread hv]
    exact ih hdepth (Nat.lt_of_succ_lt_succ hfuel) false
  | other hf hd hread hms ih =>
    obtain ⟨fuel, rfl⟩ := Nat.exists_eq_add_one.mpr (Nat.zero_lt_of_lt hfuel)
    obtain ⟨hv, hdepth⟩ := Nat.max_le.mp hdepth
    rw [Decoder.recordMembers, nextMember_memberRun]
    simp only [hf, hd, Option.any_none, afterColon, hread depth hv]
    exact ih hdepth (Nat.lt_of_succ_lt_succ hfuel) false

/-- A record is read from the members of an object. -/
theorem Fills.objectRecord (h : Fills fields other [] blank ms s) :
    (Decoder.objectRecord blank fields other).Reads (.object ms) s := by
  intro depth hdepth rest
  rw [Value.tokens_object, List.cons_append, List.append_assoc]
  cases depth with
  | zero => exact absurd hdepth (Nat.not_succ_le_zero _)
  | succ depth =>
    exact h.recordMembers (Nat.le_of_succ_le_succ hdepth)
      (Value.length_lt_memberRun true ms (.closeObject :: rest)) true rest

theorem Fills.recordOr (h : Fills fields other [] blank ms s) :
    (Decoder.recordOr other blank fields).Reads (.object ms) s := by
  intro depth hdepth rest
  rw [← h.objectRecord depth hdepth rest]
  cases depth <;> rfl

theorem Fills.record (h : Fills fields ignore [] blank ms s) :
    (Decoder.record blank fields).Reads (.object ms) s := h.recordOr

theorem Fills.closedRecord (h : Fills fields (fun _ => none) [] blank ms s) :
    (Decoder.closedRecord blank fields).Reads (.object ms) s := h.recordOr

/-- If all members but the last one are read, what the last one gives decides on the record. -/
theorem LastDecides.recordMembers {seen : List Nat} {x : Except Fault σ}
    (h : LastDecides fields seen s ms x) {depth : Nat} (hdepth : Value.membersDepth ms ≤ depth)
    {fuel : Nat} (hfuel : ms.length < fuel) (first : Bool) (rest : List Token) :
    Decoder.recordMembers fields other depth fuel first seen s
      (Value.memberRun first ms ++ .closeObject :: rest) = x.map fun s => (s, rest) := by
  induction h generalizing fuel first with
  | @last seen s k v i f x y hf hi hread hall hset =>
    obtain ⟨fuel, rfl⟩ := Nat.exists_eq_add_one.mpr (Nat.zero_lt_of_lt hfuel)
    obtain ⟨hv, -⟩ := Nat.max_le.mp hdepth
    rw [← hset]
    cases x with
    | error e =>
      rw [Decoder.recordMembers, nextMember_memberRun]
      simp only [hf, Option.any_some, hi, afterColon, hread depth hv, Except.map]
    | ok set =>
      obtain ⟨fuel, rfl⟩ := Nat.exists_eq_add_one.mpr (Nat.lt_of_succ_lt_succ hfuel)
      rw [recordMembers_field hf hi hread hv]
      exact recordMembers_done hall depth fuel false rest
  | field hf hi hread hms ih =>
    obtain ⟨fuel, rfl⟩ := Nat.exists_eq_add_one.mpr (Nat.zero_lt_of_lt hfuel)
    obtain ⟨hv, hdepth⟩ := Nat.max_le.mp hdepth
    rw [recordMembers_field hf hi hread hv]
    exact ih hdepth (Nat.lt_of_succ_lt_succ hfuel) false

theorem LastDecides.record {x : Except Fault σ} (h : LastDecides fields [] blank ms x) :
    (Decoder.record blank fields).Gives (.object ms) x := by
  intro depth hdepth rest
  rw [Value.tokens_object, List.cons_append, List.append_assoc]
  cases depth with
  | zero => exact absurd hdepth (Nat.not_succ_le_zero _)
  | succ depth =>
    exact h.recordMembers (Nat.le_of_succ_le_succ hdepth)
      (Value.length_lt_memberRun true ms (.closeObject :: rest)) true rest

end Records

/-! ## Records whose members stand beside others -/

section Beside

variable {fields : List (Field σ)} {kept own : List (String × Value)} {s t : σ}

/-- The members of no field are kept in their order. -/
theorem Fills.keep {fields : List (Field (τ × List (String × Value)))} {seen : List Nat} {x : τ}
    {acc : List (String × Value)} {u : τ × List (String × Value)}
    (hkept : ∀ m ∈ kept, findField fields m.1 = none)
    (h : Fills fields (Decoder.keep fun m s => (s.1, m :: s.2)) seen
      (x, kept.reverse ++ acc) own u) :
    Fills fields (Decoder.keep fun m s => (s.1, m :: s.2)) seen (x, acc) (kept ++ own) u := by
  induction kept generalizing acc with
  | nil => exact h
  | cons m kept ih =>
    refine .other (hkept m List.mem_cons_self) rfl ((reads_tree m.2).map _) ?_
    refine ih (fun n hn => hkept n (List.mem_cons_of_mem m hn)) ?_
    rwa [List.reverse_cons, List.append_assoc, List.singleton_append] at h

/-- A field of a record beside which members are kept.  Setting it leaves the kept members alone. -/
def Field.beside (f : Field σ) : Field (σ × List (String × Value)) :=
  ⟨f.names, f.presence, map (fun set s => (set s.1, s.2)) f.read⟩

theorem findField_beside (fields : List (Field σ)) (k : String) :
    findField (fields.map Field.beside) k =
      (findField fields k).map fun p => (p.1, p.2.beside) := by
  simp only [findField, List.zipIdx_map, List.find?_map, Option.map_map]
  rfl

theorem isComplete_beside (fields : List (Field σ)) (seen : List Nat) :
    isComplete (fields.map Field.beside) seen = isComplete fields seen := by
  simp only [isComplete, List.zipIdx_map, List.all_map]
  rfl

/-- A record is filled beside kept members as it is filled alone. -/
theorem Fills.beside {seen : List Nat} (h : Fills fields (fun _ => none) seen s own t)
    (acc : List (String × Value)) :
    Fills (fields.map Field.beside) (Decoder.keep fun m s => (s.1, m :: s.2)) seen (s, acc) own
      (t, acc) := by
  induction h with
  | done hseen =>
    refine .done ?_
    rw [isComplete_beside]
    exact hseen
  | @field seen s t k v ms i f set hf hi hread hms ih =>
    have hf' : findField (fields.map Field.beside) k = some (i, f.beside) := by
      rw [findField_beside, hf]
      rfl
    have hread' : f.beside.read.Reads v fun s => (set s.1, s.2) :=
      hread.map fun set (s : σ × List (String × Value)) => (set s.1, s.2)
    exact .field hf' hi hread' ih
  | other hf hd => cases hd

/-- A record whose members stand behind those of another one is read, and so is the other.  Members
of no field of the first one are kept for the second, and no name may be one of both. -/
theorem reads_embedding {blank : σ} {inner : Decoder β} {b : β} {combine : σ → β → α}
    (hkept : ∀ m ∈ kept, findField fields m.1 = none)
    (hown : Fills fields (fun _ => none) [] blank own t) (hinner : inner.Reads (.object kept) b)
    (hdepth : (Value.object kept).depth ≤ maxDepth) :
    (embedding blank fields inner combine).Reads (.object (kept ++ own)) (combine t b) := by
  have hfills : Fills (fields.map Field.beside) (Decoder.keep fun m s => (s.1, m :: s.2)) []
      (blank, []) (kept ++ own) (t, kept.reverse) := by
    refine Fills.keep (fun m hm => ?_) ?_
    · rw [findField_beside, hkept m hm]
      rfl
    · rw [List.append_nil]
      exact hown.beside kept.reverse
  refine hfills.objectRecord.filterMap ?_
  rw [List.reverse_reverse, hinner.ofTree hdepth]
  rfl

/-- The name of a variant is read from the first member, and then the others as the variant says. -/
theorem reads_tagged {name : String} {tag : Decoder τ} {body : τ → Decoder α} {x : τ} {w : Value}
    (hkept : ∀ m ∈ kept, m.1 ≠ name) (htag : tag.Reads w x)
    (hbody : (body x).Reads (.object kept) a) (hdepth : (Value.object kept).depth ≤ maxDepth) :
    (tagged name tag body).Reads (.object ((name, w) :: kept)) a := by
  let field : Field (Option τ × List (String × Value)) :=
    .required name tag fun t s => (some t, s.2)
  have hname : findField [field] name = some (0, field) := by
    simp [findField, field, Field.required]
  have hother : ∀ m ∈ kept, findField [field] m.1 = none := by
    intro m hm
    simp [findField, field, Field.required, hkept m hm]
  have hend : Fills [field] (Decoder.keep fun m s => (s.1, m :: s.2)) [0] (some x, []) (kept ++ [])
      (some x, kept.reverse ++ []) := .keep hother (.done rfl)
  rw [List.append_nil, List.append_nil] at hend
  have hfills : Fills [field] (Decoder.keep fun m s => (s.1, m :: s.2)) [] (none, [])
      ((name, w) :: kept) (some x, kept.reverse) :=
    .field hname rfl (htag.required name fun t s => (some t, s.2)) hend
  have hread := hfills.objectRecord.filterMap (b := a)
    (f := fun s => s.1.bind fun t => (body t).ofTree (.object s.2.reverse)) (by
      rw [Option.bind_some, List.reverse_reverse]
      exact hbody.ofTree hdepth)
  intro depth hv rest
  rw [← hread depth hv rest]
  cases depth <;> rfl

end Beside

end Decoder

end Json

end Marketplace
