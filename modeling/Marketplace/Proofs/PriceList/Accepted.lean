import Marketplace.PriceList.Document
import Marketplace.Proofs.Json.Yields
set_option autoImplicit false

/-!
# Accepted price lists

What is true of every price list that a text is read as: no good names a parameter twice, and no
amount is negative (`PriceList.sound_of_ofText`).  The first is seen to by the reader of parameters,
and the readers of goods and of lists of goods hand it on; the second by the check at the end.

The readers are taken apart with `Reader.Yields`, which has one lemma for each way to make a reader
of others.  So what a list is true of is shown where it is seen to, and no reader is opened twice.
-/

namespace Marketplace

namespace Yaml.Reader

variable {α σ : Type} {src : Source}

/-- Whatever the reader takes from a node has the property, at any depth and with any jumps taken
before. -/
def Yields (r : Reader α) (P : α → Prop) : Prop :=
  ∀ depth n jumps a jumps', r depth n jumps = .ok (a, jumps') → P a

/-- Setting the member keeps the property, whatever has been read.  A property of a record is kept
by members that it is not about, and seen to by one that it is about. -/
def Field.Keeps (f : Field σ) (P : σ → Prop) : Prop :=
  ∀ depth n jumps set jumps', f.read depth n jumps = .ok (set, jumps') → ∀ s, P s → P (set s)

theorem Field.keeps_of {P : σ → Prop} {Q : α → Prop} {name : String} {required : Bool}
    {r : Reader α} {set : α → σ → σ} (hr : r.Yields Q) (hset : ∀ a s, Q a → P s → P (set a s)) :
    (Field.of name required r set).Keeps P := by
  intro depth n jumps _ jumps' hread s hs
  obtain ⟨p, hvalue, heq⟩ := Except.map_eq_ok_iff.mp hread
  cases heq
  exact hset p.1 s (hr _ _ _ _ _ hvalue) hs

/-- A member that the property is not about keeps it. -/
theorem Field.keeps_of_forall {P : σ → Prop} {name : String} {required : Bool} {r : Reader α}
    {set : α → σ → σ} (hset : ∀ a s, P s → P (set a s)) :
    (Field.of name required r set).Keeps P :=
  Field.keeps_of (Q := fun _ => True) (fun _ _ _ _ _ _ => trivial) fun a s _ => hset a s

/-- The entries of a mapping set one member after the other. -/
theorem fieldEntries_keeps {P : σ → Prop} {fields : List (Field σ)}
    (hfields : ∀ f ∈ fields, f.Keeps P) {depth : Nat} {ns : List Node} {seen seen' : List String}
    {s s' : σ} {jumps jumps' : Jumps} (hs : P s)
    (h : fieldEntries src fields depth ns seen s jumps = .ok ((seen', s'), jumps')) : P s' := by
  fun_induction fieldEntries src fields depth ns seen s jumps with
  | case1 =>
    cases h
    exact hs
  | case3 k seen s _ name jumps _ v rest _ _ ih => exact ih hs h
  | case8 k seen s _ name _ _ f hf _ v rest set jumps hread ih =>
    exact ih (hfields f (List.mem_of_find?_eq_some hf) _ _ _ _ _ hread s hs) h
  | _ => cases h

/-- What is true of a record before anything has been read, and what its members keep, is true of
every record that is read, in whatever order its members stand. -/
theorem Yields.record {P : σ → Prop} {blank : σ} {fields : List (Field σ)} (hblank : P blank)
    (hfields : ∀ f ∈ fields, f.Keeps P) : (record src blank fields).Yields P := by
  intro depth n jumps s jumps' h
  unfold Reader.record at h
  split at h
  · cases h
  · split at h
    · cases h
    · split at h
      · cases h
      · rename_i hentries
        split at h
        · cases h
        · split at h
          · cases h
            exact fieldEntries_keeps hfields hblank hentries
          · cases h
  · cases h

/-- Nodes that are read one after the other give what each of them yields. -/
theorem each_yields {P : α → Prop} {r : Node → Jumps → Except Json.Fault (α × Jumps)}
    (hr : ∀ n jumps a jumps', r n jumps = .ok (a, jumps') → P a) {ns : List Node}
    {as : List α} {jumps jumps' : Jumps} (h : each r ns jumps = .ok (as, jumps')) :
    ∀ a ∈ as, P a := by
  induction ns generalizing as jumps with
  | nil =>
    cases h
    simp
  | cons n ns ih =>
    simp only [each] at h
    split at h
    · cases h
    · rename_i hb
      obtain ⟨p, hrest, heq⟩ := Except.map_eq_ok_iff.mp h
      cases heq
      exact List.forall_mem_cons.mpr ⟨hr _ _ _ _ hb, ih hrest⟩

theorem finish_eq_ok_iff {finished : Bool} {a b : α} :
    finish finished a = .ok b ↔ finished = true ∧ a = b := by
  cases finished <;> simp [finish]

/-- Lists are read item by item. -/
theorem Yields.list {P : α → Prop} {r : Reader α} (hr : r.Yields P) :
    (list src r).Yields fun as => ∀ a ∈ as, P a := by
  intro depth n jumps as jumps' h
  unfold Reader.list at h
  split at h
  · cases h
  · split at h
    · cases h
    · rename_i depth
      obtain ⟨p, heach, hfinish⟩ := Except.bind_eq_ok_iff.mp h
      obtain ⟨-, rfl⟩ := finish_eq_ok_iff.mp hfinish
      exact each_yields (hr depth) heach
  · split at h
    · cases h
      simp
    · cases h
  · cases h

end Yaml.Reader

open Yaml (Reader)

/-- What a document is read as is what its reader yields: everything else about a document, that it
is one and not more, is settled before and after. -/
theorem Yaml.readText_yields {α : Type} {P : α → Prop} {r : Source → Reader α}
    (hr : ∀ src, (r src).Yields P) {s : String} {a : α} (h : readText r s = .ok a) : P a := by
  unfold readText at h
  simp only at h
  split at h
  · cases h
  · split at h
    · cases h
    · rename_i hread
      split at h
      · cases h
        exact hr _ _ _ _ _ _ hread
      · cases h

namespace ParameterEntry

/-- No name stands twice. -/
def Distinct (ps : List ParameterEntry) : Prop := (ps.map Prod.fst).Nodup

instance (ps : List ParameterEntry) : Decidable (Distinct ps) :=
  inferInstanceAs (Decidable (ps.map Prod.fst).Nodup)

theorem Distinct.nil : Distinct [] := List.nodup_nil

/-- A name that is there already is refused, so the names go on being distinct. -/
theorem Distinct.extend {before : List ParameterEntry} (h : Distinct before)
    {key value : Yaml.Value} {p : ParameterEntry} (hp : make before key value = .ok p) :
    Distinct (before ++ [p]) := by
  unfold make at hp
  split at hp
  · cases hp
  · rename_i name _
    split at hp
    · cases hp
    · split at hp
      · cases hp
      · rename_i hnew
        cases hp
        have hnot : name ∉ before.map Prod.fst := by
          simpa [List.any_eq_true] using hnew
        unfold Distinct
        rw [List.map_append]
        refine List.nodup_append.mpr ⟨h, List.pairwise_singleton _ _, fun a ha b hb hab => ?_⟩
        rw [List.map_singleton, List.mem_singleton] at hb
        rw [hab, hb] at ha
        exact hnot ha

theorem readEntries_distinct
    {r : Yaml.Node → Yaml.Jumps → Except Json.Fault (Yaml.Value × Yaml.Jumps)}
    {ns : List Yaml.Node} {seen ps : List ParameterEntry} {jumps jumps' : Yaml.Jumps}
    (hseen : Distinct seen) (h : readEntries r ns seen jumps = .ok (ps, jumps')) : Distinct ps := by
  fun_induction readEntries r ns seen jumps with
  | case4 k v rest seen _ key _ _ value _ _ p hp ih => exact ih (hseen.extend hp) h
  | case6 =>
    cases h
    exact hseen
  | _ => cases h

/-- Where there are parameters, they are read from the entries of a mapping, beginning with none. -/
theorem yields_reader (src : Yaml.Source) : (reader src).Yields Distinct := by
  intro depth n jumps ps jumps' h
  unfold reader at h
  split at h
  · cases h
  · split at h
    · cases h
      exact List.nodup_nil
    · cases h
  · split at h
    · cases h
    · split at h
      · cases h
      · obtain ⟨p, hentries, hfinish⟩ := Except.bind_eq_ok_iff.mp h
        obtain ⟨-, rfl⟩ := Reader.finish_eq_ok_iff.mp hfinish
        exact readEntries_distinct .nil hentries
  · cases h

end ParameterEntry

/-- No parameter of the good stands twice. -/
abbrev Good.Distinct (g : Good) : Prop := ParameterEntry.Distinct g.parameters

theorem Good.yields_reader (src : Yaml.Source) : (reader src).Yields Good.Distinct := by
  refine Reader.Yields.record ParameterEntry.Distinct.nil ?_
  simp only [List.forall_mem_cons]
  refine ⟨?_, ?_, ?_, ?_, ?_, ?_, ?_, ?_, by simp⟩
  case refine_8 =>
    exact Reader.Field.keeps_of (ParameterEntry.yields_reader src) fun ps g hps _ => hps
  all_goals exact Reader.Field.keeps_of_forall fun _ _ hg => hg

namespace PriceList

theorem yields_reader (src : Yaml.Source) :
    (reader src).Yields fun l => ∀ g ∈ l.goods, g.Distinct := by
  refine Reader.Yields.record (by simp [blank]) ?_
  simp only [List.forall_mem_cons]
  refine ⟨?_, ?_, ?_, by simp⟩
  · exact Reader.Field.keeps_of_forall fun _ _ hl => hl
  · exact Reader.Field.keeps_of_forall fun _ _ hl => hl
  · exact Reader.Field.keeps_of (Good.yields_reader src).list fun gs l hgs _ => hgs

/-- A check of all items that goes well has gone well for each of them. -/
theorem check_of_forM {α ε : Type} {check : α → Except ε Unit} {as : List α}
    (h : as.forM check = .ok ()) : ∀ a ∈ as, check a = .ok () := by
  induction as with
  | nil => simp
  | cons a as ih =>
    rw [List.forM] at h
    obtain ⟨⟨⟩, ha, hrest⟩ := Except.bind_eq_ok_iff.mp h
    exact List.forall_mem_cons.mpr ⟨ha, ih hrest⟩

end PriceList

/-- The prices and the quantity of a good are looked at one by one. -/
theorem Good.amounts_of_check {g : Good} {place : Nat} (h : g.check place = .ok ()) :
    ∀ a ∈ g.amounts, 0 ≤ a.2 := by
  unfold Good.check at h
  split at h
  · cases h
  · split at h
    · cases h
    · rename_i hnone
      intro a ha
      have hnot := List.find?_eq_none.mp hnone a ha
      rwa [decide_eq_true_eq, Int.not_lt] at hnot

/-- What is true of price lists that are accepted. -/
structure PriceList.Sound (l : PriceList) : Prop where
  parameters : ∀ g ∈ l.goods, g.Distinct
  amounts : ∀ g ∈ l.goods, ∀ a ∈ g.amounts, 0 ≤ a.2

namespace PriceList

theorem amounts_of_check {l : PriceList} (h : l.check = .ok ()) :
    ∀ g ∈ l.goods, ∀ a ∈ g.amounts, 0 ≤ a.2 := by
  unfold check at h
  split at h
  · cases h
  · rw [Except.mapError_eq_ok_iff, Except.bind_eq_ok_iff] at h
    obtain ⟨⟨⟩, -, hgoods⟩ := h
    intro g hg
    obtain ⟨i, hi⟩ := List.getElem?_of_mem hg
    exact Good.amounts_of_check
      (check_of_forM hgoods (g, i) (List.mk_mem_zipIdx_iff_getElem?.mpr hi))

/-- Whatever text it has been read from, a price list is sound. -/
theorem sound_of_ofText {text : String} {l : PriceList} (h : ofText text = .ok l) : l.Sound := by
  unfold ofText at h
  split at h
  · cases h
  · rename_i hread
    obtain ⟨⟨⟩, hcheck, rfl⟩ := Except.map_eq_ok_iff.mp h
    exact ⟨Yaml.readText_yields yields_reader hread, amounts_of_check hcheck⟩

end PriceList

end Marketplace
