import Mathlib.Data.List.Lattice
import Marketplace.Proofs.Json.Soundness
set_option autoImplicit false

/-!
# What decoders yield

A property that a decoder sees to is handed on by the decoders that are made of it.  Every object
that is read as a value has each name once (`Decoder.yields_value`).

Some values cannot do without a token.  So the lemmas are about what is taken from tokens among
which some do not occur (`Decoder.YieldsWithout`), and they say that what is left lacks these tokens
too: then a decoder made of others is looked at part by part, and what it should not have taken has
been read from a text with one of the tokens (`Decoder.YieldsWithout.mem_tokenize`).
-/

namespace Marketplace.Json

namespace Value

/-! ## Names that stand once -/

/-- If the value is an object, no two of its members have one name.  Only the outermost object is
looked at; the members of it are values of their own. -/
def NamesOnce (v : Value) : Prop := ∀ ms, v = .object ms → (ms.map Prod.fst).Nodup

/-- Setting a member adds its name, unless it is there already. -/
theorem mem_setMember {name k : String} {v : Value} {ms : List (String × Value)} :
    k ∈ (setMember name v ms).map Prod.fst ↔ k = name ∨ k ∈ ms.map Prod.fst := by
  induction ms with
  | nil => simp [setMember]
  | cons m ms ih =>
    by_cases hname : m.1 = name
    · simp [setMember, hname]
    · simp only [setMember, beq_iff_eq, hname, if_false, List.map_cons, List.mem_cons, ih]
      exact or_left_comm

/-- A member takes the place of the one of its name, or comes behind all others. -/
theorem nodup_setMember {name : String} {v : Value} {ms : List (String × Value)}
    (h : (ms.map Prod.fst).Nodup) : ((setMember name v ms).map Prod.fst).Nodup := by
  induction ms with
  | nil => simp [setMember]
  | cons m ms ih =>
    rw [List.map_cons, List.nodup_cons] at h
    by_cases hname : m.1 = name
    · simp only [setMember, hname, beq_self_eq_true, if_true, List.map_cons, List.nodup_cons]
      exact ⟨hname ▸ h.1, h.2⟩
    · simp only [setMember, beq_iff_eq, hname, if_false, List.map_cons, List.nodup_cons]
      refine ⟨?_, ih h.2⟩
      intro hmem
      exact (mem_setMember.mp hmem).elim hname h.1

/-- However often a name stands in a text, the members that are kept have it once. -/
theorem nodup_uniqueMembers (ms : List (String × Value)) :
    ((uniqueMembers ms).map Prod.fst).Nodup := by
  have hfold (acc : List (String × Value)) (hacc : (acc.map Prod.fst).Nodup) :
      ((ms.foldl (fun acc m => setMember m.1 m.2 acc) acc).map Prod.fst).Nodup := by
    induction ms generalizing acc with
    | nil => exact hacc
    | cons m ms ih => exact ih _ (nodup_setMember hacc)
  exact hfold [] List.nodup_nil

/-- That holds at every depth, since the values of members are treated before the members are. -/
theorem namesOnce_unify (v : Value) : v.unify.NamesOnce := by
  intro ms hms
  cases v with
  | object ms' =>
    rw [Value.unify, Value.object.injEq] at hms
    rw [← hms]
    exact nodup_uniqueMembers _
  | _ => cases hms

end Value

namespace Decoder

variable {α β σ : Type} {d : Decoder α} {P : α → Prop} {us : List Token}

/-! ## Decoders that see to a property -/

/-- Whatever the decoder takes from tokens has the property, at any depth. -/
def Yields (d : Decoder α) (P : α → Prop) : Prop :=
  ∀ depth ts a rest, d depth ts = .ok (a, rest) → P a

/-- From tokens without those of `us`, the decoder takes only what has the property, and it leaves
tokens without them. -/
def YieldsWithout (us : List Token) (d : Decoder α) (P : α → Prop) : Prop :=
  ∀ depth ts a rest, us.Disjoint ts → d depth ts = .ok (a, rest) → P a ∧ us.Disjoint rest

/-- Nothing need be left out: all that is said of tokens without some holds of any. -/
theorem yields_iff : d.Yields P ↔ d.YieldsWithout [] P := by
  simp [Yields, YieldsWithout]

/-- Setting the member keeps the property, whatever has been read. -/
def Field.Keeps (f : Field σ) (P : σ → Prop) : Prop := f.read.Yields fun set => ∀ s, P s → P (set s)

/-- Setting the member keeps the property, unless one of the tokens stands in it. -/
def Field.KeepsWithout (us : List Token) (f : Field σ) (P : σ → Prop) : Prop :=
  f.read.YieldsWithout us fun set => ∀ s, P s → P (set s)

theorem Yields.runTokens (h : d.Yields P) {ts : List Token} {a : α} (ha : d.runTokens ts = .ok a) :
    P a := by
  unfold Decoder.runTokens at ha
  split at ha
  · rename_i b hread
    cases ha
    exact h _ _ _ _ hread
  · cases ha
  · cases ha

theorem Yields.ofTree (h : d.Yields P) {v : Value} {a : α} (ha : d.ofTree v = some a) : P a := by
  unfold Decoder.ofTree at ha
  cases hread : d.runTokens v.tokens with
  | error e =>
    rw [hread] at ha
    cases ha
  | ok b =>
    rw [hread] at ha
    cases ha
    exact h.runTokens hread

/-- What lacks the property has been read from a text with the token.  This is the form in which the
lemmas are used: of a value that should not have been accepted, where it comes from. -/
theorem YieldsWithout.mem_tokenize {u : Token} (h : d.YieldsWithout [u] P) {s : String} {a : α}
    (ha : d.run s = .ok a) (hP : ¬P a) : u ∈ tokenize s := by
  unfold run runTokens at ha
  split at ha
  · rename_i hread
    cases ha
    by_contra hu
    exact hP (h _ _ _ _ (List.singleton_disjoint.mpr hu) hread).1
  · cases ha
  · cases ha

/-! ## Scalars and skipped values -/

/-- A scalar is one token, and that is none of those left out. -/
theorem yieldsWithout_scalar {f : Token → Option α} (h : ∀ t a, t ∉ us → f t = some a → P a) :
    (scalar f).YieldsWithout us P := by
  intro depth ts a rest hus hread
  cases ts with
  | nil => cases hread
  | cons t ts =>
    obtain ⟨ht, hts⟩ := List.disjoint_cons_right.mp hus
    simp only [scalar] at hread
    split at hread
    · rename_i hf
      cases hread
      exact ⟨h t _ ht hf, hts⟩
    · cases hread

theorem yieldsWithout_text : Decoder.text.YieldsWithout us fun _ => True :=
  yieldsWithout_scalar fun _ _ _ _ => trivial

/-- What is passed over is a stretch of the tokens, so what is left lacks the tokens too. -/
theorem yieldsWithout_skip : skip.YieldsWithout us fun _ => True := by
  intro depth ts a rest hus hread
  obtain ⟨rest', hskip, heq⟩ := Except.map_eq_ok_iff.mp hread
  cases heq
  obtain ⟨taken, rfl, -⟩ := exists_stretch_of_skipFrom hskip
  exact ⟨trivial, (List.disjoint_append_right.mp hus).2⟩

/-! ## Decoders made of others -/

/-- What is made of a value that was taken has what the making gives it. -/
theorem yieldsWithout_map {f : α → β} {Q : β → Prop} (h : d.YieldsWithout us fun a => Q (f a)) :
    (map f d).YieldsWithout us Q := by
  intro depth ts b rest hus hread
  obtain ⟨p, hp, heq⟩ := Except.map_eq_ok_iff.mp hread
  cases heq
  exact h _ _ _ _ hus hp

/-- Null has any property of what might have been there. -/
theorem yieldsWithout_option (h : d.YieldsWithout us P) :
    (option d).YieldsWithout us fun o => ∀ a, o = some a → P a := by
  have hsome : (map some d).YieldsWithout us fun o => ∀ a, o = some a → P a :=
    yieldsWithout_map fun depth ts a rest hus hread =>
      have hd := h depth ts a rest hus hread
      ⟨fun _ hb => Option.some.inj hb ▸ hd.1, hd.2⟩
  intro depth ts o rest hus hread
  unfold option at hread
  split at hread
  · cases hread
    refine ⟨?_, (List.disjoint_cons_right.mp hus).2⟩
    rintro a ⟨⟩
  · exact hsome _ _ _ _ hus hread

/-- The items of an array, one after the other; the induction is on the fuel. -/
theorem yieldsWithout_items {d : List Token → Except Fault (α × List Token)}
    (h : ∀ ts a rest, us.Disjoint ts → d ts = .ok (a, rest) → P a ∧ us.Disjoint rest) {fuel : Nat}
    {first : Bool} {ts rest : List Token} {as : List α} (hus : us.Disjoint ts)
    (has : items d fuel first ts = .ok (as, rest)) : (∀ a ∈ as, P a) ∧ us.Disjoint rest := by
  fun_induction items d fuel first ts generalizing as with
  | case3 fuel first ts rest' hnext =>
    cases has
    rw [nextItem_eq_close hnext, List.disjoint_cons_right] at hus
    exact ⟨List.forall_mem_nil _, hus.2⟩
  | case5 fuel first ts ts' hnext a rest' hread ih =>
    obtain ⟨p, hp, heq⟩ := Except.map_eq_ok_iff.mp has
    cases heq
    rw [nextItem_eq_item hnext, List.disjoint_append_right] at hus
    obtain ⟨ha, hrest⟩ := h _ _ _ hus.2 hread
    obtain ⟨has, hend⟩ := ih hrest hp
    exact ⟨List.forall_mem_cons.mpr ⟨ha, has⟩, hend⟩
  | _ => cases has

/-- Each item of a list has the property that its decoder sees to. -/
theorem yieldsWithout_list (h : d.YieldsWithout us P) :
    (list d).YieldsWithout us fun as => ∀ a ∈ as, P a := by
  intro depth ts as rest hus hread
  unfold list at hread
  split at hread
  · cases hread
  · exact yieldsWithout_items (h _) (List.disjoint_cons_right.mp hus).2 hread
  · unfold refuse at hread
    split at hread <;> cases hread

/-- A variant is one that has been named, either by a text alone or by the one member of an
object. -/
theorem yieldsWithout_oneOf {variants : List (String × Variant α)}
    (hplain : ∀ name a, .text (some name) ∉ us → variants.lookup name = some (.plain a) → P a)
    (hcarrying : ∀ name d, variants.lookup name = some (.carrying d) → d.YieldsWithout us P) :
    (oneOf variants).YieldsWithout us P := by
  intro depth ts a rest hus hread
  unfold oneOf at hread
  split at hread
  · cases hread
  · rw [List.disjoint_cons_right] at hus
    split at hread
    · rename_i hlookup
      cases hread
      exact ⟨hplain _ _ hus.1 hlookup, hus.2⟩
    · cases hread
  · rename_i depth name ts
    rw [List.disjoint_cons_right, List.disjoint_cons_right] at hus
    obtain ⟨-, hname, hts⟩ := hus
    split at hread
    · cases hread
    · rename_i v hlookup
      split at hread
      · cases hread
      · rename_i ts' hcolon
        rw [afterColon_eq_ok hcolon, List.disjoint_cons_right] at hts
        -- What comes with the name is read in either way, and the closing brace is passed.
        have hclosed {rest' : List Token} (h : P a ∧ us.Disjoint (.closeObject :: rest')) :
            P a ∧ us.Disjoint rest' := ⟨h.1, (List.disjoint_cons_right.mp h.2).2⟩
        cases v with
        | plain b =>
          have hP := hplain name b hname hlookup
          have hd : (map (fun _ => b) null).YieldsWithout us P :=
            yieldsWithout_map (yieldsWithout_scalar fun _ _ _ _ => hP)
          dsimp only at hread
          split at hread
          · cases hread
          · rename_i hbody
            cases hread
            exact hclosed (hd _ _ _ _ hts.2 hbody)
          · cases hread
        | carrying d =>
          dsimp only at hread
          split at hread
          · cases hread
          · rename_i hbody
            cases hread
            exact hclosed (hcarrying name d hlookup _ _ _ _ hts.2 hbody)
          · cases hread
  · unfold refuse at hread
    split at hread <;> cases hread
  · cases hread

/-! ## Records -/

theorem Field.keepsWithout_required {Q : σ → Prop} (h : d.YieldsWithout us P) {set : α → σ → σ}
    (hset : ∀ a s, P a → Q s → Q (set a s)) (name : String) :
    (Field.required name d set).KeepsWithout us Q :=
  yieldsWithout_map fun depth ts a rest hus hread =>
    have hd := h depth ts a rest hus hread
    ⟨fun s => hset a s hd.1, hd.2⟩

theorem Field.keepsWithout_nullable {Q : σ → Prop} (h : d.YieldsWithout us P)
    {set : Option α → σ → σ} (hset : ∀ o s, (∀ a, o = some a → P a) → Q s → Q (set o s))
    (name : String) : (Field.nullable name d set).KeepsWithout us Q :=
  yieldsWithout_map fun depth ts o rest hus hread =>
    have hd := yieldsWithout_option h depth ts o rest hus hread
    ⟨fun s => hset o s hd.1, hd.2⟩

section Records

variable {Q : σ → Prop} {fields : List (Field σ)}

/-- A record may stand as an array of its members in their order. -/
theorem recordItems_keepsWithout (hfields : ∀ f ∈ fields, f.KeepsWithout us Q) {depth : Nat}
    {first : Bool} {s s' : σ} {ts rest : List Token} (hus : us.Disjoint ts) (hs : Q s)
    (h : recordItems depth fields first s ts = .ok (s', rest)) : Q s' ∧ us.Disjoint rest := by
  induction fields generalizing first s ts with
  | nil =>
    unfold recordItems at h
    split at h
    · cases h
      exact ⟨hs, (List.disjoint_cons_right.mp hus).2⟩
    · cases h
  | cons f fields ih =>
    unfold recordItems at h
    split at h
    · cases h
    · rename_i hnext
      rw [nextItem_eq_close hnext, List.disjoint_cons_right] at hus
      split at h
      · cases h
        exact ⟨hs, hus.2⟩
      · cases h
    · rename_i hnext
      rw [nextItem_eq_item hnext, List.disjoint_append_right] at hus
      split at h
      · cases h
      · rename_i hread
        obtain ⟨hset, hrest⟩ := hfields f List.mem_cons_self _ _ _ _ hus.2 hread
        exact ih (fun g hg => hfields g (List.mem_cons_of_mem f hg)) hrest (hset s hs) h

/-- A name that is known is read by its field, and one that is not is passed over. -/
theorem keepsWithout_of_reader (hfields : ∀ f ∈ fields, f.KeepsWithout us Q) {k : String}
    {i? : Option Nat} {read : Decoder (σ → σ)}
    (h : (match findField fields k with
      | some (i, f) => (some i, some f.read)
      | none => (none, ignore k)) = (i?, some read)) :
    read.YieldsWithout us fun set => ∀ s, Q s → Q (set s) := by
  split at h
  · rename_i i f hf
    cases h
    exact hfields f (mem_of_findField hf)
  · cases h
    exact yieldsWithout_map fun depth ts a rest hus hread =>
      ⟨fun _ hs => hs, (yieldsWithout_skip depth ts a rest hus hread).2⟩

/-- A record that stands as an object: known members are set, others are passed over. -/
theorem recordMembers_keepsWithout (hfields : ∀ f ∈ fields, f.KeepsWithout us Q) {depth fuel : Nat}
    {first : Bool} {seen : List Nat} {s s' : σ} {ts rest : List Token} (hus : us.Disjoint ts)
    (hs : Q s) (h : recordMembers fields ignore depth fuel first seen s ts = .ok (s', rest)) :
    Q s' ∧ us.Disjoint rest := by
  induction fuel generalizing first seen s ts with
  | zero => cases h
  | succ fuel ih =>
    unfold recordMembers at h
    split at h
    · cases h
    · rename_i hnext
      rw [nextMember_eq_close hnext, List.disjoint_cons_right] at hus
      split at h
      · cases h
        exact ⟨hs, hus.2⟩
      · cases h
    · rename_i k ts' hnext
      rw [nextMember_eq_name hnext, List.disjoint_append_right, List.disjoint_cons_right] at hus
      obtain ⟨-, -, hts'⟩ := hus
      split at h
      rename_i hreader
      split at h
      · split at h
        · cases h
        · rename_i hcolon
          rw [afterColon_eq_ok hcolon, List.disjoint_cons_right] at hts'
          split at h
          · cases h
          · rename_i hread
            obtain ⟨hset, hrest⟩ := keepsWithout_of_reader hfields hreader _ _ _ _ hts'.2 hread
            exact ih hrest (hset s hs) h
      · cases h

/-- What is true of a record before anything has been read, and what its members keep unless one of
the tokens stands in them, is true of every record that is read from tokens without these. -/
theorem yieldsWithout_record {blank : σ} (hblank : Q blank)
    (hfields : ∀ f ∈ fields, f.KeepsWithout us Q) : (record blank fields).YieldsWithout us Q := by
  intro depth ts s rest hus h
  unfold record recordOr at h
  split at h
  · cases h
  · exact recordItems_keepsWithout hfields (List.disjoint_cons_right.mp hus).2 hblank h
  · unfold objectRecord at h
    split at h
    · cases h
    · exact recordMembers_keepsWithout hfields (List.disjoint_cons_right.mp hus).2 hblank h
    · unfold refuse at h
      split at h <;> cases h

end Records

/-! ## Whatever the tokens -/

theorem yields_filterMap {f : α → Option β} {Q : β → Prop} (h : ∀ a b, f a = some b → Q b) :
    (filterMap f d).Yields Q := by
  intro depth ts b rest hread
  unfold filterMap at hread
  split at hread
  · split at hread
    · rename_i hb
      cases hread
      exact h _ _ hb
    · cases hread
  · cases hread

theorem yields_list (h : d.Yields P) : (list d).Yields fun as => ∀ a ∈ as, P a :=
  yields_iff.mpr (yieldsWithout_list (yields_iff.mp h))

/-- Every object that is read as a value has each name once. -/
theorem yields_value : value.Yields Value.NamesOnce := by
  intro depth ts v rest hread
  obtain ⟨p, -, heq⟩ := Except.map_eq_ok_iff.mp hread
  cases heq
  exact Value.namesOnce_unify p.1

theorem Field.keeps_nullable {P : σ → Prop} {Q : α → Prop} {name : String} {d : Decoder α}
    {set : Option α → σ → σ} (hd : d.Yields Q)
    (hset : ∀ o s, (∀ a, o = some a → Q a) → P s → P (set o s)) :
    (Field.nullable name d set).Keeps P :=
  yields_iff.mpr (Field.keepsWithout_nullable (yields_iff.mp hd) hset name)

/-- What is true of a record before anything has been read, and what its members keep, is true of
every record that is read. -/
theorem yields_record {Q : σ → Prop} {fields : List (Field σ)} {blank : σ} (hblank : Q blank)
    (hfields : ∀ f ∈ fields, f.Keeps Q) : (record blank fields).Yields Q :=
  yields_iff.mpr (yieldsWithout_record hblank fun f hf => yields_iff.mp (hfields f hf))

end Decoder

end Marketplace.Json
