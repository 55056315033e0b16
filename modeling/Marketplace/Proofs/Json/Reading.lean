import Marketplace.Json.Decoder
set_option autoImplicit false

/-!
# Values read back from their tokens

Decoders are readers of tokens, and they act on values through the tokens of these: a decoder that
takes the tokens of a value and leaves what follows them is framed, and what it makes of the value
is `Decoder.onTree`.  A tree is read back as it was unless it nests too deeply
(`Decoder.tree_tokens`), any value can be passed over (`Decoder.skipFrom_tokens`), and a record is
read from the members of an object or the items of an array one after the other
(`Decoder.recordOr_tokens`).

Depth is what keeps the two views apart.  A decoder takes tokens at some depth that is left, and a
value that nests deeper is refused, so what a decoder makes of a value is a function of both.
-/

namespace Marketplace.Json

namespace Value

/-! ## Tokens of items and members -/

mutual

/-- How deeply a value nests.  Readers of trees go down to a bounded depth, so that this decides
whether a value is read at all. -/
def depth : Value → Nat
  | .array vs => itemsDepth vs + 1
  | .object ms => membersDepth ms + 1
  | _ => 0

/-- How deeply some values nest. -/
def itemsDepth : List Value → Nat
  | [] => 0
  | v :: vs => max (depth v) (itemsDepth vs)

/-- How deeply the values of some members nest. -/
def membersDepth : List (String × Value) → Nat
  | [] => 0
  | (_, v) :: ms => max (depth v) (membersDepth ms)

end

/-- What stands before an item or a member. -/
def lead (first : Bool) : List Token := if first then [] else [.comma]

/-- The tokens of the items of an array that are left.  Readers meet the items of an array from
somewhere in the middle, so the lemmas are on what is left and not on the whole array. -/
def itemRun (first : Bool) : List Value → List Token
  | [] => []
  | v :: vs => lead first ++ (v.tokens ++ itemRun false vs)

/-- The tokens of the members of an object that are left. -/
def memberRun (first : Bool) : List (String × Value) → List Token
  | [] => []
  | (k, v) :: ms => lead first ++ .text (some k) :: .colon :: (v.tokens ++ memberRun false ms)

/-- All items but the first have a comma before them. -/
theorem separated_cons (ts : List Token) (tss : List (List Token)) :
    separated (ts :: tss) = ts ++ tss.flatMap fun us => .comma :: us := by
  induction tss generalizing ts with
  | nil => simp [separated]
  | cons us tss ih => simp [separated, ih us]

theorem itemRun_false (vs : List Value) :
    itemRun false vs = (itemTokens vs).flatMap fun us => .comma :: us := by
  induction vs with
  | nil => rfl
  | cons v vs ih => simp [itemRun, itemTokens, lead, ih]

theorem memberRun_false (ms : List (String × Value)) :
    memberRun false ms = (memberTokens ms).flatMap fun us => .comma :: us := by
  induction ms with
  | nil => rfl
  | cons m ms ih => simp [memberRun, memberTokens, lead, ih]

/-- An array is its items between brackets, -/
theorem tokens_array (vs : List Value) :
    (array vs).tokens = .openArray :: (itemRun true vs ++ [.closeArray]) := by
  cases vs with
  | nil => rfl
  | cons v vs => simp [tokens, itemTokens, separated_cons, itemRun, itemRun_false, lead]

/-- and an object its members between braces. -/
theorem tokens_object (ms : List (String × Value)) :
    (object ms).tokens = .openObject :: (memberRun true ms ++ [.closeObject]) := by
  cases ms with
  | nil => rfl
  | cons m ms => simp [tokens, memberTokens, separated_cons, memberRun, memberRun_false, lead]

/-- A value starts with a token that does not close an array.  So an array with items is not taken
for an empty one. -/
theorem exists_tokens_eq (v : Value) :
    ∃ t ts, v.tokens = t :: ts ∧ t ≠ .closeArray ∧ t ≠ .comma := by
  cases v with
  | _ => exact ⟨_, _, rfl, nofun, nofun⟩

/-- There are more tokens than items, so the number of tokens is enough fuel. -/
theorem length_lt_itemRun (first : Bool) (vs : List Value) (rest : List Token) :
    vs.length < (itemRun first vs ++ rest).length + 1 := by
  induction vs generalizing first with
  | nil => exact Nat.succ_pos _
  | cons v vs ih =>
    obtain ⟨t, ts, htokens, -⟩ := v.exists_tokens_eq
    have hlater := ih false
    simp only [itemRun, htokens, List.length_append, List.length_cons] at hlater ⊢
    omega

theorem length_lt_memberRun (first : Bool) (ms : List (String × Value)) (rest : List Token) :
    ms.length < (memberRun first ms ++ rest).length + 1 := by
  induction ms generalizing first with
  | nil => exact Nat.succ_pos _
  | cons m ms ih =>
    have hlater := ih false
    simp only [memberRun, List.length_append, List.length_cons] at hlater ⊢
    omega

end Value

namespace Decoder

variable {α β σ : Type}

/-- The next item of those that are left is the first of them, with or without its comma. -/
theorem nextItem_itemRun (first : Bool) (v : Value) (vs : List Value) (rest : List Token) :
    nextItem first (Value.itemRun first (v :: vs) ++ rest) =
      .ok (.item (v.tokens ++ (Value.itemRun false vs ++ rest))) := by
  obtain ⟨t, ts, htokens, hclose, hcomma⟩ := v.exists_tokens_eq
  cases first with
  | true => simp [Value.itemRun, Value.lead, htokens, nextItem, hclose, hcomma]
  | false => simp [Value.itemRun, Value.lead, htokens, nextItem, hclose]

theorem nextMember_memberRun (first : Bool) (k : String) (v : Value) (ms : List (String × Value))
    (rest : List Token) :
    nextMember first (Value.memberRun first ((k, v) :: ms) ++ rest) =
      .ok (.name k (.colon :: (v.tokens ++ (Value.memberRun false ms ++ rest)))) := by
  cases first <;> simp [Value.memberRun, Value.lead, nextMember, memberName]

/-! ## Items and members -/

/-- The items of an array are read one after the other.  What is read of each item is a parameter,
so that one lemma does for all decoders. -/
theorem items_itemRun {d : List Token → Except Fault (α × List Token)}
    {g : Value → Except Fault α} {vs : List Value}
    (hd : ∀ v ∈ vs, ∀ rest, d (v.tokens ++ rest) = (g v).map fun a => (a, rest)) {fuel : Nat}
    (hfuel : vs.length < fuel) (first : Bool) (rest : List Token) :
    items d fuel first (Value.itemRun first vs ++ .closeArray :: rest) =
      (vs.mapM g).map fun as => (as, rest) := by
  induction vs generalizing fuel first with
  | nil =>
    obtain ⟨fuel, rfl⟩ := Nat.exists_eq_add_one.mpr hfuel
    cases first <;> rfl
  | cons v vs ih =>
    obtain ⟨fuel, rfl⟩ := Nat.exists_eq_add_one.mpr (Nat.zero_lt_of_lt hfuel)
    have hlater := ih (fun w hw => hd w (List.mem_cons_of_mem v hw))
      (Nat.lt_of_succ_lt_succ hfuel) false
    rw [items, nextItem_itemRun]
    simp only [hd v List.mem_cons_self, List.mapM_cons]
    cases g v with
    | error e => rfl
    | ok a =>
      simp only [Except.map, hlater]
      cases vs.mapM g <;> rfl

/-- So are the members of an object. -/
theorem members_memberRun {d : List Token → Except Fault (α × List Token)}
    {g : Value → Except Fault α} {ms : List (String × Value)}
    (hd : ∀ m ∈ ms, ∀ rest, d (m.2.tokens ++ rest) = (g m.2).map fun a => (a, rest)) {fuel : Nat}
    (hfuel : ms.length < fuel) (first : Bool) (rest : List Token) :
    members d fuel first (Value.memberRun first ms ++ .closeObject :: rest) =
      (ms.mapM fun m => (g m.2).map fun a => (m.1, a)).map fun as => (as, rest) := by
  induction ms generalizing fuel first with
  | nil =>
    obtain ⟨fuel, rfl⟩ := Nat.exists_eq_add_one.mpr hfuel
    cases first <;> rfl
  | cons m ms ih =>
    obtain ⟨fuel, rfl⟩ := Nat.exists_eq_add_one.mpr (Nat.zero_lt_of_lt hfuel)
    have hlater := ih (fun n hn => hd n (List.mem_cons_of_mem m hn))
      (Nat.lt_of_succ_lt_succ hfuel) false
    rw [members, nextMember_memberRun, List.mapM_cons]
    simp only [afterColon, hd m List.mem_cons_self]
    generalize (ms.mapM fun m => (g m.2).map fun a => (m.1, a)) = later at hlater ⊢
    cases g m.2 with
    | error e => rfl
    | ok a =>
      simp only [Except.map, hlater]
      cases later <;> rfl

/-! ## Trees -/

/-- A value that does not nest too deeply, and a fault for one that does. -/
def ofDepth (n : Nat) (v : Value) : Except Fault Value :=
  if v.depth ≤ n then .ok v else .error .malformed

/-- Items are refused together if one of them nests too deeply. -/
theorem mapM_ofDepth (n : Nat) (vs : List Value) :
    vs.mapM (ofDepth n) = if Value.itemsDepth vs ≤ n then .ok vs else .error .malformed := by
  induction vs with
  | nil => simp [Value.itemsDepth, pure, Except.pure]
  | cons v vs ih =>
    rw [List.mapM_cons, ih, ofDepth, Value.itemsDepth]
    simp only [Nat.max_le]
    by_cases hv : v.depth ≤ n <;> by_cases hvs : Value.itemsDepth vs ≤ n <;>
      simp [hv, hvs, bind, Except.bind, pure, Except.pure]

theorem mapM_members_ofDepth (n : Nat) (ms : List (String × Value)) :
    (ms.mapM fun m => (ofDepth n m.2).map fun v => (m.1, v)) =
      if Value.membersDepth ms ≤ n then .ok ms else .error .malformed := by
  induction ms with
  | nil => simp [Value.membersDepth, pure, Except.pure]
  | cons m ms ih =>
    rw [List.mapM_cons, ih, ofDepth, Value.membersDepth]
    simp only [Nat.max_le]
    by_cases hv : m.2.depth ≤ n <;> by_cases hms : Value.membersDepth ms ≤ n <;>
      simp [hv, hms, bind, Except.bind, pure, Except.pure, Except.map]

/-- The tree of a value's tokens is the value.  The induction is on the depth that is left, and the
lemmas on items and members take one level away. -/
theorem tree_tokens (n : Nat) (v : Value) (rest : List Token) :
    tree n (v.tokens ++ rest) = (ofDepth n v).map fun v => (v, rest) := by
  induction n generalizing v rest with
  | zero =>
    cases v <;> rfl
  | succ n ih =>
    cases v with
    | array vs =>
      have hitems := items_itemRun (g := ofDepth n) (fun v (_ : v ∈ vs) rest => ih v rest)
        (Value.length_lt_itemRun true vs (.closeArray :: rest)) true rest
      rw [mapM_ofDepth] at hitems
      simp only [Value.tokens_array, List.cons_append, List.append_assoc, List.nil_append, tree,
        hitems, ofDepth, Value.depth, Nat.add_le_add_iff_right]
      split <;> rfl
    | object ms =>
      have hmembers := members_memberRun (g := ofDepth n)
        (fun m (_ : m ∈ ms) rest => ih m.2 rest)
        (Value.length_lt_memberRun true ms (.closeObject :: rest)) true rest
      rw [mapM_members_ofDepth] at hmembers
      simp only [Value.tokens_object, List.cons_append, List.append_assoc, List.nil_append, tree,
        hmembers, ofDepth, Value.depth, Nat.add_le_add_iff_right]
      split <;> rfl
    | _ => rfl

/-! ## Passing over values -/

/-- What follows a value that has been passed over: the frames around it are still open, and the
next token is their separator. -/
def passed : List Frame → List Token → Except Fault (List Token)
  | [], rest => .ok rest
  | f :: fs, rest => skipFrom (f :: fs) .separator rest

theorem skipFrom_firstItem {t : Token} (ht : t ≠ .closeArray) (fs : List Frame) (ts : List Token) :
    skipFrom (.array :: fs) .firstItem (t :: ts) = skipFrom (.array :: fs) .value (t :: ts) := by
  cases t <;> first | rfl | exact absurd rfl ht

mutual

/-- A value is passed over, however deeply it nests.  The open arrays and objects are kept in a
list, so no depth is spent on them, and the induction is on the value. -/
theorem skipFrom_tokens (v : Value) (fs : List Frame) (rest : List Token) :
    skipFrom fs .value (v.tokens ++ rest) = passed fs rest := by
  cases v with
  | array vs =>
    have hopen (ts : List Token) : skipFrom fs .value (.openArray :: ts) =
        skipFrom (.array :: fs) .firstItem ts := by cases fs <;> rfl
    rw [Value.tokens_array, List.cons_append, List.append_assoc, hopen]
    cases vs with
    | nil => cases fs <;> rfl
    | cons v vs =>
      have hv := skipFrom_tokens v (.array :: fs) (Value.itemRun false vs ++ .closeArray :: rest)
      have hvs := skipFrom_itemRun vs fs rest
      obtain ⟨t, ts, htokens, hclose, -⟩ := v.exists_tokens_eq
      rw [htokens, List.cons_append] at hv
      simp only [Value.itemRun, Value.lead, if_true, List.nil_append, List.append_assoc, htokens,
        List.cons_append, skipFrom_firstItem hclose, hv, passed, hvs]
  | object ms =>
    have hopen (ts : List Token) : skipFrom fs .value (.openObject :: ts) =
        skipFrom (.object :: fs) .firstName ts := by cases fs <;> rfl
    rw [Value.tokens_object, List.cons_append, List.append_assoc, hopen]
    cases ms with
    | nil => cases fs <;> rfl
    | cons m ms =>
      have hv := skipFrom_tokens m.2 (.object :: fs)
        (Value.memberRun false ms ++ .closeObject :: rest)
      have hms := skipFrom_memberRun ms fs rest
      simp [Value.memberRun, Value.lead, skipFrom, hv, passed, hms]
  | _ => cases fs <;> rfl

/-- The rest of an array is passed over, item by item. -/
theorem skipFrom_itemRun (vs : List Value) (fs : List Frame) (rest : List Token) :
    skipFrom (.array :: fs) .separator (Value.itemRun false vs ++ .closeArray :: rest) =
      passed fs rest := by
  cases vs with
  | nil => cases fs <;> rfl
  | cons v vs =>
    have hv := skipFrom_tokens v (.array :: fs) (Value.itemRun false vs ++ .closeArray :: rest)
    have hvs := skipFrom_itemRun vs fs rest
    simp [Value.itemRun, Value.lead, skipFrom, hv, hvs, passed]

/-- So is the rest of an object, whose names are not looked at. -/
theorem skipFrom_memberRun (ms : List (String × Value)) (fs : List Frame) (rest : List Token) :
    skipFrom (.object :: fs) .separator (Value.memberRun false ms ++ .closeObject :: rest) =
      passed fs rest := by
  cases ms with
  | nil => cases fs <;> rfl
  | cons m ms =>
    have hv := skipFrom_tokens m.2 (.object :: fs)
      (Value.memberRun false ms ++ .closeObject :: rest)
    have hms := skipFrom_memberRun ms fs rest
    simp [Value.memberRun, Value.lead, skipFrom, hv, hms, passed]

end

/-! ## Decoders of values -/

/-- What the decoder makes of a value. -/
def onTree (d : Decoder α) (depth : Nat) (v : Value) : Except Fault α :=
  (d depth v.tokens).map Prod.fst

/-- The decoder takes the tokens of a value and leaves what follows them.  A framed decoder may be
used in any place of a larger text, which is what makes decoders of decoders. -/
def IsFramed (d : Decoder α) : Prop :=
  ∀ depth v rest, d depth (v.tokens ++ rest) = (d.onTree depth v).map fun a => (a, rest)

section Framed

variable {d : Decoder α} {g : Nat → Value → Except Fault α}

/-- What a decoder does with the tokens of values, whatever follows them, is what it makes of the
values. -/
theorem onTree_eq
    (h : ∀ depth v rest, d depth (v.tokens ++ rest) = (g depth v).map fun a => (a, rest))
    (depth : Nat) (v : Value) : d.onTree depth v = g depth v := by
  have hv := h depth v []
  rw [List.append_nil] at hv
  rw [onTree, hv]
  cases g depth v <;> rfl

/-- Whatever a decoder makes of tokens, it is framed if that does not depend on what follows. -/
theorem IsFramed.of_eq
    (h : ∀ depth v rest, d depth (v.tokens ++ rest) = (g depth v).map fun a => (a, rest)) :
    d.IsFramed := by
  intro depth v rest
  rw [h, onTree_eq h]

/-- A value is decoded from its tokens. -/
theorem IsFramed.ofTree_eq (h : d.IsFramed) (v : Value) :
    d.ofTree v = (d.onTree maxDepth v).toOption := by
  have hv := h maxDepth v []
  rw [List.append_nil] at hv
  rw [ofTree, runTokens, hv]
  cases d.onTree maxDepth v <;> rfl

theorem map_tokens (hd : d.IsFramed) (f : α → β) (depth : Nat) (v : Value) (rest : List Token) :
    map f d depth (v.tokens ++ rest) = ((d.onTree depth v).map f).map fun b => (b, rest) := by
  rw [map, hd]
  cases d.onTree depth v <;> rfl

/-- A function of what is decoded does not change which tokens are taken. -/
theorem IsFramed.map (hd : d.IsFramed) (f : α → β) : (map f d).IsFramed := .of_eq (map_tokens hd f)

theorem onTree_map (hd : d.IsFramed) (f : α → β) (depth : Nat) (v : Value) :
    (Decoder.map f d).onTree depth v = (d.onTree depth v).map f :=
  onTree_eq (map_tokens hd f) depth v

/-- Values of any kind end where their tokens do. -/
theorem isFramed_value : value.IsFramed :=
  IsFramed.map (.of_eq tree_tokens) _

theorem onTree_value (depth : Nat) (v : Value) :
    value.onTree depth v = (ofDepth depth v).map Value.unify := by
  rw [value, onTree_map (.of_eq tree_tokens), onTree_eq tree_tokens]

theorem skip_tokens (depth : Nat) (v : Value) (rest : List Token) :
    skip depth (v.tokens ++ rest) = (Except.ok ()).map fun a => (a, rest) := by
  rw [skip, skipFrom_tokens]
  rfl

theorem option_tokens (hd : d.IsFramed) (depth : Nat) (v : Value) (rest : List Token) :
    option d depth (v.tokens ++ rest) =
      (if v.isNull then .ok none else (d.onTree depth v).map some).map fun a => (a, rest) := by
  have hsome := map_tokens hd some depth v rest
  cases v with
  | null => rfl
  | _ => exact hsome

theorem IsFramed.option (hd : d.IsFramed) : (option d).IsFramed := .of_eq (option_tokens hd)

/-- Null is nothing, and anything else is what the decoder makes of it. -/
theorem onTree_option (hd : d.IsFramed) (depth : Nat) (v : Value) :
    (Decoder.option d).onTree depth v =
      if v.isNull then .ok none else (d.onTree depth v).map some :=
  onTree_eq (option_tokens hd) depth v

theorem isFramed_nullable (hd : d.IsFramed) (name : String) (set : Option α → σ → σ) :
    (Field.nullable name d set).read.IsFramed :=
  hd.option.map set

end Framed

/-! ## Records -/

/-- What the members of an object make of a record: each one is that of a field that has not been
seen yet, or is read in another way. -/
def membersInto (fields : List (Field σ)) (other : String → Option (Decoder (σ → σ)))
    (depth : Nat) : List Nat → σ → List (String × Value) → Except Fault σ
  | seen, s, [] => if isComplete fields seen then .ok s else .error .mismatch
  | seen, s, (k, v) :: ms =>
    let (i?, read?) := match findField fields k with
      | some (i, f) => (some i, some f.read)
      | none => (none, other k)
    match i?.any seen.contains, read? with
    | false, some read =>
      match read.onTree depth v with
      | .error e => .error e
      | .ok set => membersInto fields other depth (i?.toList ++ seen) (set s) ms
    | _, _ => .error .mismatch

/-- What the items of an array make of a record: they are its fields in order.  There must be one
for each field and no more. -/
def itemsInto (depth : Nat) : List (Field σ) → σ → List Value → Except Fault σ
  | [], s, [] => .ok s
  | [], _, _ :: _ => .error .malformed
  | f :: fields, s, [] =>
    if (f :: fields).all (·.presence == .defaulted) then .ok s else .error .mismatch
  | f :: fields, s, v :: vs =>
    match f.read.onTree depth v with
    | .error e => .error e
    | .ok set => itemsInto depth fields (set s) vs

/-- What a value makes of a record.  At depth zero neither arrays nor objects are read. -/
def recordInto (fields : List (Field σ)) (other : String → Option (Decoder (σ → σ))) (blank : σ) :
    Nat → Value → Except Fault σ
  | 0, .array _ | 0, .object _ => .error .malformed
  | depth + 1, .array vs => itemsInto depth fields blank vs
  | depth + 1, .object ms => membersInto fields other depth [] blank ms
  | _, _ => .error .mismatch

section Records

variable {fields : List (Field σ)} {other : String → Option (Decoder (σ → σ))} {depth : Nat}

theorem mem_of_findField {k : String} {i : Nat} {f : Field σ}
    (hf : findField fields k = some (i, f)) : f ∈ fields := by
  obtain ⟨p, hp, heq⟩ := Option.map_eq_some_iff.mp hf
  cases heq
  exact List.fst_mem_of_mem_zipIdx (List.mem_of_find?_eq_some hp)

/-- The members of a record are read one after the other.  Fields that have been seen are remembered
by their places, so a second member of one field is refused. -/
theorem recordMembers_memberRun (hfields : ∀ f ∈ fields, f.read.IsFramed)
    (hother : ∀ k d, other k = some d → d.IsFramed) {ms : List (String × Value)} {fuel : Nat}
    (hfuel : ms.length < fuel) (first : Bool) (seen : List Nat) (s : σ) (rest : List Token) :
    recordMembers fields other depth fuel first seen s
        (Value.memberRun first ms ++ .closeObject :: rest) =
      (membersInto fields other depth seen s ms).map fun s => (s, rest) := by
  induction ms generalizing fuel first seen s with
  | nil =>
    obtain ⟨fuel, rfl⟩ := Nat.exists_eq_add_one.mpr hfuel
    have hclose : nextMember first (.closeObject :: rest) = .ok (.close rest) := by
      cases first <;> rfl
    simp only [Value.memberRun, List.nil_append, recordMembers, hclose, membersInto]
    split <;> rfl
  | cons m ms ih =>
    obtain ⟨fuel, rfl⟩ := Nat.exists_eq_add_one.mpr (Nat.zero_lt_of_lt hfuel)
    have hlater := ih (Nat.lt_of_succ_lt_succ hfuel) false
    rw [recordMembers, nextMember_memberRun, membersInto]
    dsimp only [afterColon]
    cases hf : findField fields m.1 with
    | none =>
      cases ho : other m.1 with
      | none => rfl
      | some d =>
        dsimp only [Option.any_none]
        rw [hother _ d ho]
        cases d.onTree depth m.2 with
        | error e => rfl
        | ok set => exact hlater seen (set s)
    | some p =>
      dsimp only [Option.any_some]
      cases seen.contains p.1 with
      | true => rfl
      | false =>
        dsimp only
        rw [hfields p.2 (mem_of_findField hf)]
        cases p.2.read.onTree depth m.2 with
        | error e => rfl
        | ok set => exact hlater (p.1 :: seen) (set s)

/-- So are the items of a record. -/
theorem recordItems_itemRun (hfields : ∀ f ∈ fields, f.read.IsFramed) (first : Bool) (s : σ)
    (vs : List Value) (rest : List Token) :
    recordItems depth fields first s (Value.itemRun first vs ++ .closeArray :: rest) =
      (itemsInto depth fields s vs).map fun s => (s, rest) := by
  induction fields generalizing first s vs with
  | nil =>
    cases vs with
    | nil => rfl
    | cons v vs =>
      obtain ⟨t, ts, htokens, hclose, -⟩ := v.exists_tokens_eq
      cases first with
      | true =>
        simp [Value.itemRun, Value.lead, htokens, recordItems, itemsInto, hclose, Except.map]
      | false => simp [Value.itemRun, Value.lead, recordItems, itemsInto, Except.map]
  | cons f fields ih =>
    cases vs with
    | nil =>
      have hclose : nextItem first (.closeArray :: rest) = .ok (.close rest) := by
        cases first <;> rfl
      simp only [Value.itemRun, List.nil_append, recordItems, hclose, itemsInto]
      split <;> rfl
    | cons v vs =>
      rw [recordItems, nextItem_itemRun, itemsInto]
      dsimp only
      rw [hfields f List.mem_cons_self]
      cases f.read.onTree depth v with
      | error e => rfl
      | ok set => exact ih (fun g hg => hfields g (List.mem_cons_of_mem f hg)) false (set s) vs

/-- A record is read from a value by its members or items, and nothing else is a record. -/
theorem recordOr_tokens (hfields : ∀ f ∈ fields, f.read.IsFramed)
    (hother : ∀ k d, other k = some d → d.IsFramed) (blank : σ) (depth : Nat) (v : Value)
    (rest : List Token) :
    recordOr other blank fields depth (v.tokens ++ rest) =
      (recordInto fields other blank depth v).map fun s => (s, rest) := by
  cases v with
  | array vs =>
    rw [Value.tokens_array, List.cons_append, List.append_assoc]
    cases depth with
    | zero => rfl
    | succ depth => exact recordItems_itemRun hfields true blank vs rest
  | object ms =>
    rw [Value.tokens_object, List.cons_append, List.append_assoc]
    cases depth with
    | zero => rfl
    | succ depth =>
      exact recordMembers_memberRun hfields hother
        (Value.length_lt_memberRun true ms (.closeObject :: rest)) true [] blank rest
  | _ => cases depth <;> rfl

/-- The members of no field are passed over. -/
theorem isFramed_ignore (k : String) {d : Decoder (σ → σ)} (hd : ignore k = some d) :
    d.IsFramed := by
  cases hd
  exact IsFramed.map (.of_eq skip_tokens) _

/-- What is passed over changes nothing. -/
theorem onTree_ignore (k : String) {d : Decoder (σ → σ)} (hd : ignore k = some d) (depth : Nat)
    (v : Value) : d.onTree depth v = .ok fun s => s := by
  cases hd
  rw [onTree_map (.of_eq skip_tokens), onTree_eq skip_tokens]
  rfl

/-- The member of a field that has not been seen yet is read as the field says. -/
theorem membersInto_field {k : String} {i : Nat} {f : Field σ}
    (hf : findField fields k = some (i, f)) {seen : List Nat} (hseen : i ∉ seen) (s : σ) (v : Value)
    (ms : List (String × Value)) :
    membersInto fields other depth seen s ((k, v) :: ms) =
      (f.read.onTree depth v).bind fun set =>
        membersInto fields other depth (i :: seen) (set s) ms := by
  have hnew : (some i).any seen.contains = false := by simpa using hseen
  rw [membersInto, hf]
  simp only [hnew]
  cases f.read.onTree depth v <;> rfl

/-- The first item belongs to the first field. -/
theorem itemsInto_cons (f : Field σ) (s : σ) (v : Value) (vs : List Value) :
    itemsInto depth (f :: fields) s (v :: vs) =
      (f.read.onTree depth v).bind fun set => itemsInto depth fields (set s) vs := by
  rw [itemsInto]
  cases f.read.onTree depth v <;> rfl

/-- The member of no field is passed over. -/
theorem membersInto_ignore {k : String} (hf : findField fields k = none) (seen : List Nat) (s : σ)
    (v : Value) (ms : List (String × Value)) :
    membersInto fields ignore depth seen s ((k, v) :: ms) =
      membersInto fields ignore depth seen s ms := by
  have hread : (map (fun _ (s : σ) => s) skip).onTree depth v = .ok fun s => s :=
    onTree_ignore k rfl depth v
  rw [membersInto, hf]
  simp only [ignore, Option.any_none, hread, Option.toList_none, List.nil_append]

theorem onTree_record (hfields : ∀ f ∈ fields, f.read.IsFramed) (blank : σ) (depth : Nat)
    (v : Value) : (record blank fields).onTree depth v = recordInto fields ignore blank depth v :=
  onTree_eq (recordOr_tokens hfields (fun k _ => isFramed_ignore k) blank) depth v

theorem IsFramed.record (hfields : ∀ f ∈ fields, f.read.IsFramed) (blank : σ) :
    (record blank fields).IsFramed :=
  .of_eq (recordOr_tokens hfields (fun k _ => isFramed_ignore k) blank)

end Records

end Decoder

end Marketplace.Json
