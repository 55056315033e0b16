import Mathlib.Data.List.Forall2
import Mathlib.Data.List.Induction
import Marketplace.Proofs.PriceList.Accepted
import Marketplace.Proofs.Text.Digits
set_option autoImplicit false

/-!
# Which mappings are parameters

A scalar of any kind is kept as a text: numbers as their digits, truth values as their names, and
null as nothing at all (`Yaml.Value.Shows`).  A mapping gives the parameters of a good exactly if
every key shows a text that is not blank, every value is a scalar, and no two keys show one text,
whatever kinds of scalars they are (`ParameterEntry.Acceptable`); so the number 1 and the text of it
do not go together (`Yaml.Value.Alike`).  The parameters are then the texts in the order of the
document.  Otherwise the first entry is objected to that may not stand after those before it
(`ParameterEntry.Objection.First`).
-/

namespace Marketplace

open Yaml (Value Node Jumps Source Reader)
open Json (Fault)

namespace Yaml.Value

/-- The value is a scalar without a tag of its own. -/
def IsScalar : Value → Prop
  | .null | .bool _ | .int _ | .float _ | .text _ => True
  | .sequence _ | .mapping _ | .tagged _ _ => False

/-- The text that a scalar shows, one case for each way to write one.  A finite number that is not
zero shows its shortest digits with a point or an exponent, which tells it from an integer. -/
inductive Shows : Value → String → Prop
  | null : Shows .null ""
  | yes : Shows (.bool true) "true"
  | no : Shows (.bool false) "false"
  | natural (n : Nat) : Shows (.int n) (String.ofList (Nat.toDigits 10 n))
  | negative {n : Nat} (h : 0 < n) : Shows (.int (-n)) (String.ofList ('-' :: Nat.toDigits 10 n))
  | zero (e : Int) : Shows (.float (.finite false 0 e)) "0.0"
  | minusZero (e : Int) : Shows (.float (.finite true 0 e)) "-0.0"
  | positiveFinite {m n : Nat} {e k : Int} (hm : m ≠ 0) (h : Binary64.shortest m e = (n, k)) :
    Shows (.float (.finite false m e)) (String.ofList (Binary64.layout (Nat.toDigits 10 n) k))
  | negativeFinite {m n : Nat} {e k : Int} (hm : m ≠ 0) (h : Binary64.shortest m e = (n, k)) :
    Shows (.float (.finite true m e)) (String.ofList ('-' :: Binary64.layout (Nat.toDigits 10 n) k))
  | infinity : Shows (.float (.infinite false)) ".inf"
  | minusInfinity : Shows (.float (.infinite true)) "-.inf"
  | notANumber : Shows (.float .notANumber) ".nan"
  | text (s : String) : Shows (.text s) s

/-- The two values show one text. -/
def Collide (v w : Value) : Prop := ∃ s, v.Shows s ∧ w.Shows s

/-- The second value is the text that the first one, an integer or a truth value, looks like. -/
inductive Alike : Value → Value → Prop
  | int (n : Int) : Alike (.int n) (.text (toString n))
  | bool (b : Bool) : Alike (.bool b) (.text (toString b))

end Yaml.Value

namespace Yaml.Reader

variable {α : Type} {r : Node → Jumps → Except Fault (α × Jumps)} {ns : List Node} {a : α}
  {as : List α} {jumps jumps' : Jumps}

theorem each_eq_nil (h : each r ns jumps = .ok ([], jumps')) : ns = [] ∧ jumps = jumps' := by
  cases ns with
  | nil =>
    cases h
    exact ⟨rfl, rfl⟩
  | cons n ns =>
    simp only [each] at h
    split at h
    · cases h
    · obtain ⟨p, -, hp⟩ := Except.map_eq_ok_iff.mp h
      cases hp

theorem each_eq_cons (h : each r ns jumps = .ok (a :: as, jumps')) :
    ∃ n ms j, ns = n :: ms ∧ r n jumps = .ok (a, j) ∧ each r ms j = .ok (as, jumps') := by
  cases ns with
  | nil => cases h
  | cons n ns =>
    simp only [each] at h
    split at h
    · cases h
    · rename_i b j hn
      obtain ⟨p, hrest, hp⟩ := Except.map_eq_ok_iff.mp h
      cases hp
      exact ⟨n, ns, j, rfl, hn, hrest⟩

end Yaml.Reader

namespace ParameterEntry

/-- The key shows this text, and it is not blank. -/
def Names (key : Value) (name : String) : Prop :=
  key.Shows name ∧ Text.isBlankText name = false

/-- Every key shows a text that is not blank, every value is a scalar, and no two keys show one
text. -/
structure Acceptable (es : List (Value × Value)) : Prop where
  keys : ∀ e ∈ es, ∃ name, Names e.1 name
  values : ∀ e ∈ es, e.2.IsScalar
  distinct : es.Pairwise fun a b => ¬a.1.Collide b.1

/-- The parameters are the texts of the entries, in their order. -/
def Rendered (es : List (Value × Value)) (ps : List ParameterEntry) : Prop :=
  List.Forall₂ (fun e p => e.1.Shows p.1 ∧ e.2.Shows p.2) es ps

namespace Objection

/-- What there is to object to an entry that stands after others: to its key before its value, and
to its value before a name that stands twice. -/
def Against (before : List (Value × Value)) (e : Value × Value) : Objection → Prop
  | .unnamed => ∀ name, ¬Names e.1 name
  | .noScalar name => Names e.1 name ∧ ¬e.2.IsScalar
  | .duplicate name => Names e.1 name ∧ e.2.IsScalar ∧ ∃ b ∈ before, b.1.Shows name

/-- The objection to the first entry that may not stand after those before it. -/
def First (es : List (Value × Value)) (o : Objection) : Prop :=
  ∃ before e after, es = before ++ e :: after ∧ Acceptable before ∧ o.Against before e

end Objection

variable {es before : List (Value × Value)} {ps qs : List ParameterEntry} {key value : Value}
  {name : String} {p : ParameterEntry} {o : Objection}

/-! ## One scalar -/

theorem toString_natCast_eq (n : Nat) :
    toString (n : Int) = String.ofList (Nat.toDigits 10 n) := by
  rw [← Text.toList_toString_natCast, String.ofList_toList]

theorem toString_neg_eq {n : Nat} (hn : 0 < n) :
    toString (-(n : Int)) = String.ofList ('-' :: Nat.toDigits 10 n) := by
  rw [← Text.toList_toString_neg hn, String.ofList_toList]

/-- The text of a finite number that is not zero: a sign, if it is negative, and its digits. -/
theorem finiteText_eq (b : Bool) {m n : Nat} {e k : Int} (hm : m ≠ 0)
    (h : Binary64.shortest m e = (n, k)) : Binary64.finiteText b m e =
      String.ofList ((if b then ['-'] else []) ++ Binary64.layout (Nat.toDigits 10 n) k) := by
  simp only [Binary64.finiteText, beq_iff_eq, if_neg hm, h]

theorem scalarText?_of_shows {s : String} (h : value.Shows s) : scalarText? value = some s := by
  cases h with
  | natural n => exact congrArg some (toString_natCast_eq n)
  | negative hn => exact congrArg some (toString_neg_eq hn)
  | positiveFinite hm h => exact congrArg some (finiteText_eq false hm h)
  | negativeFinite hm h => exact congrArg some (finiteText_eq true hm h)
  | _ => rfl

/-- An integer shows its digits, with a sign if it is negative. -/
theorem shows_int (n : Int) : (Value.int n).Shows (toString n) := by
  obtain ⟨n, rfl | rfl⟩ := n.eq_nat_or_neg
  · rw [toString_natCast_eq]
    exact .natural n
  · rcases Nat.eq_zero_or_pos n with rfl | hn
    · exact .natural 0
    · rw [toString_neg_eq hn]
      exact .negative hn

/-- A finite number shows what it is written as, zero with a sign of its own. -/
theorem shows_finite (b : Bool) (m : Nat) (e : Int) :
    (Value.float (.finite b m e)).Shows (Binary64.finiteText b m e) := by
  by_cases hm : m = 0
  · subst hm
    cases b
    · exact .zero e
    · exact .minusZero e
  · rw [finiteText_eq b hm rfl]
    cases b
    · exact .positiveFinite hm rfl
    · exact .negativeFinite hm rfl

/-- What a scalar shows is the text that it is kept as. -/
theorem shows_iff {s : String} : value.Shows s ↔ scalarText? value = some s := by
  refine ⟨scalarText?_of_shows, fun h => ?_⟩
  cases value with
  | sequence _ | mapping _ | tagged _ _ => cases h
  | null => cases h; exact .null
  | text s => cases h; exact .text _
  | int n => cases h; exact shows_int n
  | bool b =>
    cases h
    cases b
    · exact .no
    · exact .yes
  | float x =>
    cases x with
    | finite b m e => cases h; exact shows_finite b m e
    | notANumber => cases h; exact .notANumber
    | infinite b =>
      cases h
      cases b
      · exact .infinity
      · exact .minusInfinity

theorem isScalar_iff : value.IsScalar ↔ ∃ s, value.Shows s := by
  simp only [shows_iff]
  cases value <;> simp [Value.IsScalar, scalarText?]

/-- A value shows one text at most. -/
theorem shows_inj {s t : String} (hs : value.Shows s) (ht : value.Shows t) : s = t :=
  Option.some.inj ((shows_iff.mp hs).symm.trans (shows_iff.mp ht))

theorem collide_of_alike {v w : Value} (h : v.Alike w) : v.Collide w := by
  cases h with
  | int n => exact ⟨_, shows_int n, .text _⟩
  | bool b => exact ⟨_, shows_iff.mpr rfl, .text _⟩

/-! ## One entry -/

theorem Names.iff_eq {other : String} (h : Names key name) : Names key other ↔ name = other :=
  ⟨fun hother => shows_inj h.1 hother.1, fun heq => heq ▸ h⟩

/-- All that may become of an entry. -/
theorem make_cases (ps : List ParameterEntry) (key value : Value) :
    ((∀ name, ¬Names key name) ∧ make ps key value = .error .unnamed) ∨
      (∃ name, Names key name ∧ ¬value.IsScalar ∧ make ps key value = .error (.noScalar name)) ∨
      (∃ name, Names key name ∧ value.IsScalar ∧ name ∈ ps.map Prod.fst ∧
        make ps key value = .error (.duplicate name)) ∨
      ∃ p, Names key p.1 ∧ value.Shows p.2 ∧ p.1 ∉ ps.map Prod.fst ∧
        make ps key value = .ok p := by
  simp only [Names, isScalar_iff, shows_iff]
  unfold make
  cases hkey : (scalarText? key).filter fun name => !Text.isBlankText name with
  | none =>
    rw [Option.filter_eq_none_iff] at hkey
    exact .inl ⟨fun name hname => hkey name hname.1 (by simp [hname.2]), rfl⟩
  | some name =>
    rw [Option.filter_eq_some_iff, Bool.not_eq_true'] at hkey
    right
    cases hvalue : scalarText? value with
    | none => exact .inl ⟨name, hkey, by simp, rfl⟩
    | some text =>
      right
      by_cases hold : name ∈ ps.map Prod.fst
      · have hany : (ps.any fun p => p.1 == name) = true := by simpa using hold
        exact .inl ⟨name, hkey, ⟨text, rfl⟩, hold, if_pos hany⟩
      · have hany : ¬(ps.any fun p => p.1 == name) = true := by simpa using hold
        exact .inr ⟨(name, text), hkey, rfl, hold, if_neg hany⟩

theorem make_eq_ok_iff : make ps key value = .ok p ↔
    Names key p.1 ∧ value.Shows p.2 ∧ p.1 ∉ ps.map Prod.fst := by
  obtain ⟨hkey, hmake⟩ | ⟨name, hkey, hvalue, hmake⟩ | ⟨name, hkey, hvalue, hold, hmake⟩ |
    ⟨q, hkey, hvalue, hnew, hmake⟩ := make_cases ps key value
  · rw [hmake]
    exact iff_of_false nofun fun h => hkey p.1 h.1
  · rw [hmake]
    exact iff_of_false nofun fun h => hvalue (isScalar_iff.mpr ⟨p.2, h.2.1⟩)
  · rw [hmake, hkey.iff_eq]
    exact iff_of_false nofun fun h => h.2.2 (h.1 ▸ hold)
  · rw [hmake, hkey.iff_eq, Except.ok.injEq]
    constructor
    · rintro rfl
      exact ⟨rfl, hvalue, hnew⟩
    · rintro ⟨hname, htext, -⟩
      exact Prod.ext hname (shows_inj hvalue htext)

/-- The names of parameters are the texts of their keys. -/
theorem Rendered.mem_names_iff (h : Rendered before ps) :
    name ∈ ps.map Prod.fst ↔ ∃ b ∈ before, b.1.Shows name := by
  induction h with
  | nil => simp
  | cons hshows _ ih =>
    rw [List.map_cons, List.mem_cons, ih, List.exists_mem_cons_iff]
    refine or_congr_left ⟨fun heq => heq ▸ hshows.1, fun hname => shows_inj hname hshows.1⟩

/-- A key collides with none before it exactly if its name is none of theirs. -/
theorem Rendered.notMem_names_iff (h : Rendered before ps) (hkey : key.Shows name) :
    name ∉ ps.map Prod.fst ↔ ∀ b ∈ before, ¬b.1.Collide key := by
  rw [h.mem_names_iff]
  constructor
  · rintro hnew b hb ⟨other, hbefore, hother⟩
    exact hnew ⟨b, hb, shows_inj hother hkey ▸ hbefore⟩
  · rintro hnew ⟨b, hb, hbefore⟩
    exact hnew b hb ⟨name, hbefore, hkey⟩

/-- An entry that follows others is refused with what there is to object to it. -/
theorem make_eq_error_iff (h : Rendered before ps) :
    make ps key value = .error o ↔ o.Against before (key, value) := by
  obtain ⟨hkey, hmake⟩ | ⟨name, hkey, hvalue, hmake⟩ | ⟨name, hkey, hvalue, hold, hmake⟩ |
    ⟨q, hkey, hvalue, hnew, hmake⟩ := make_cases ps key value
  · rw [hmake]
    cases o <;> simp [Objection.Against, hkey]
  · rw [hmake]
    cases o <;> simp [Objection.Against, hkey.iff_eq, hvalue]
  · rw [hmake]
    cases o with
    | unnamed | noScalar _ => simp [Objection.Against, hkey.iff_eq, hvalue]
    | duplicate other =>
      constructor
      · rintro ⟨⟩
        exact ⟨hkey, hvalue, h.mem_names_iff.mp hold⟩
      · rintro ⟨hother, -⟩
        rw [hkey.iff_eq.mp hother]
  · have hscalar : value.IsScalar := isScalar_iff.mpr ⟨q.2, hvalue⟩
    rw [hmake]
    refine iff_of_false nofun ?_
    cases o with
    | unnamed => exact fun hnone => hnone q.1 hkey
    | noScalar other => exact fun hother => hother.2 hscalar
    | duplicate other =>
      rintro ⟨hother, -, hseen⟩
      rw [← h.mem_names_iff, ← hkey.iff_eq.mp hother] at hseen
      exact hnew hseen

/-! ## All entries -/

theorem Acceptable.nil : Acceptable [] := ⟨nofun, nofun, .nil⟩

theorem acceptable_concat_iff {e : Value × Value} : Acceptable (es ++ [e]) ↔
    Acceptable es ∧ (∃ name, Names e.1 name) ∧ e.2.IsScalar ∧ ∀ b ∈ es, ¬b.1.Collide e.1 := by
  have hdistinct : (es ++ [e]).Pairwise (fun a b => ¬a.1.Collide b.1) ↔
      es.Pairwise (fun a b => ¬a.1.Collide b.1) ∧ ∀ b ∈ es, ¬b.1.Collide e.1 := by
    simp [List.pairwise_append]
  constructor
  · rintro ⟨hkeys, hvalues, hpairs⟩
    rw [List.forall_mem_append, List.forall_mem_singleton] at hkeys hvalues
    obtain ⟨hbefore, hnew⟩ := hdistinct.mp hpairs
    exact ⟨⟨hkeys.1, hvalues.1, hbefore⟩, hkeys.2, hvalues.2, hnew⟩
  · rintro ⟨⟨hkeys, hvalues, hbefore⟩, hkey, hvalue, hnew⟩
    refine ⟨?_, ?_, hdistinct.mpr ⟨hbefore, hnew⟩⟩
    · rw [List.forall_mem_append, List.forall_mem_singleton]
      exact ⟨hkeys, hkey⟩
    · rw [List.forall_mem_append, List.forall_mem_singleton]
      exact ⟨hvalues, hvalue⟩

/-- A number or a truth value does not go with the text that it looks like. -/
theorem not_acceptable_of_alike {a b : Value × Value} (hab : a.1.Alike b.1)
    (h : [a, b].Sublist es ∨ [b, a].Sublist es) : ¬Acceptable es := by
  intro hes
  obtain ⟨s, ha, hb⟩ := collide_of_alike hab
  rcases h with h | h
  · have hpair := hes.distinct.sublist h
    exact List.rel_of_pairwise_cons hpair (List.mem_singleton.mpr rfl) ⟨s, ha, hb⟩
  · have hpair := hes.distinct.sublist h
    exact List.rel_of_pairwise_cons hpair (List.mem_singleton.mpr rfl) ⟨s, hb, ha⟩

theorem rendered_concat_iff {e : Value × Value} : Rendered (es ++ [e]) qs ↔
    ∃ ps p, qs = ps ++ [p] ∧ Rendered es ps ∧ e.1.Shows p.1 ∧ e.2.Shows p.2 := by
  unfold Rendered
  rw [← List.forall₂_reverse_iff, List.reverse_append, List.reverse_singleton,
    List.singleton_append, List.forall₂_cons_left_iff]
  constructor
  · rintro ⟨p, ps, hp, hps, hqs⟩
    refine ⟨ps.reverse, p, ?_, ?_, hp⟩
    · rw [← List.reverse_cons, ← hqs, List.reverse_reverse]
    · rwa [← List.forall₂_reverse_iff, List.reverse_reverse]
  · rintro ⟨ps, p, rfl, hps, hp⟩
    refine ⟨p, ps.reverse, hp, List.forall₂_reverse_iff.mpr hps, ?_⟩
    rw [List.reverse_append, List.reverse_singleton, List.singleton_append]

/-- Entries have one list of texts at most. -/
theorem Rendered.unique (hps : Rendered es ps) (hqs : Rendered es qs) : ps = qs := by
  induction hps generalizing qs with
  | nil =>
    cases hqs
    rfl
  | cons hp _ ih =>
    cases hqs with
    | cons hq hqs =>
      rw [ih hqs, Prod.ext (shows_inj hp.1 hq.1) (shows_inj hp.2 hq.2)]

/-- Acceptable entries have texts. -/
theorem Acceptable.exists_rendered (h : Acceptable es) : ∃ ps, Rendered es ps := by
  induction es using List.reverseRecOn with
  | nil => exact ⟨[], .nil⟩
  | append_singleton es e ih =>
    obtain ⟨hes, ⟨name, hname⟩, hvalue, -⟩ := acceptable_concat_iff.mp h
    obtain ⟨ps, hps⟩ := ih hes
    obtain ⟨text, htext⟩ := isScalar_iff.mp hvalue
    exact ⟨ps ++ [(name, text)],
      rendered_concat_iff.mpr ⟨ps, (name, text), rfl, hps, hname.1, htext⟩⟩

theorem extend_append (ps : List ParameterEntry) (es fs : List (Value × Value)) :
    extend ps (es ++ fs) = (extend ps es).bind fun qs => extend qs fs := by
  fun_induction extend ps es with
  | case1 ps => rfl
  | case2 ps key value rest e hmake => simp only [List.cons_append, extend, hmake, Except.bind]
  | case3 ps key value rest p hmake ih => simp only [List.cons_append, extend, hmake, ih]

/-- Entries are refused for the first of them that does not go with those before it. -/
theorem extend_eq_error_iff : extend ps es = .error o ↔
    ∃ before e after qs, es = before ++ e :: after ∧ extend ps before = .ok qs ∧
      make qs e.1 e.2 = .error o := by
  constructor
  · intro h
    fun_induction extend ps es with
    | case1 ps => cases h
    | case2 ps key value rest o hmake =>
      cases h
      exact ⟨[], (key, value), rest, ps, rfl, rfl, hmake⟩
    | case3 ps key value rest p hmake ih =>
      obtain ⟨before, e, after, qs, rfl, hbefore, he⟩ := ih h
      refine ⟨(key, value) :: before, e, after, qs, rfl, ?_, he⟩
      simp only [extend, hmake, hbefore]
  · rintro ⟨before, e, after, qs, rfl, hbefore, he⟩
    rw [extend_append, hbefore]
    simp only [Except.bind, extend, he]

/-- Entries are made parameters exactly if they are acceptable, and then the parameters are their
texts. -/
theorem ofEntries_eq_ok_iff : ofEntries es = .ok ps ↔ Acceptable es ∧ Rendered es ps := by
  induction es using List.reverseRecOn generalizing ps with
  | nil =>
    constructor
    · rintro ⟨⟩
      exact ⟨.nil, .nil⟩
    · rintro ⟨-, ⟨⟩⟩
      rfl
  | append_singleton es e ih =>
    have hlast (qs : List ParameterEntry) :
        extend qs [e] = .ok ps ↔ ∃ p, make qs e.1 e.2 = .ok p ∧ ps = qs ++ [p] := by
      rw [extend]
      cases make qs e.1 e.2 with
      | error o => simp
      | ok p => simp [extend, eq_comm]
    rw [ofEntries, extend_append, Except.bind_eq_ok_iff, acceptable_concat_iff, rendered_concat_iff]
    constructor
    · rintro ⟨qs, hqs, hps⟩
      obtain ⟨p, hmake, rfl⟩ := (hlast qs).mp hps
      obtain ⟨hes, hrendered⟩ := ih.mp hqs
      obtain ⟨hname, hvalue, hnew⟩ := make_eq_ok_iff.mp hmake
      exact ⟨⟨hes, ⟨p.1, hname⟩, isScalar_iff.mpr ⟨p.2, hvalue⟩,
        (hrendered.notMem_names_iff hname.1).mp hnew⟩, qs, p, rfl, hrendered, hname.1, hvalue⟩
    · rintro ⟨⟨hes, ⟨name, hname⟩, -, hnew⟩, qs, p, rfl, hrendered, hkey, hvalue⟩
      obtain rfl : name = p.1 := shows_inj hname.1 hkey
      refine ⟨qs, ih.mpr ⟨hes, hrendered⟩, (hlast _).mpr ⟨p, ?_, rfl⟩⟩
      exact make_eq_ok_iff.mpr ⟨hname, hvalue, (hrendered.notMem_names_iff hkey).mpr hnew⟩

/-- Other entries are refused for the first of them that may not stand there. -/
theorem ofEntries_eq_error_iff : ofEntries es = .error o ↔ o.First es := by
  rw [ofEntries, extend_eq_error_iff]
  constructor
  · rintro ⟨before, e, after, qs, rfl, hbefore, he⟩
    obtain ⟨hacceptable, hrendered⟩ := ofEntries_eq_ok_iff.mp hbefore
    exact ⟨before, e, after, rfl, hacceptable, (make_eq_error_iff hrendered).mp he⟩
  · rintro ⟨before, e, after, rfl, hacceptable, he⟩
    obtain ⟨qs, hrendered⟩ := hacceptable.exists_rendered
    exact ⟨before, e, after, qs, rfl, ofEntries_eq_ok_iff.mpr ⟨hacceptable, hrendered⟩,
      (make_eq_error_iff hrendered).mpr he⟩

/-! ## Mappings of a document -/

/-- The keys and values in turn, as a document has them. -/
def inTurn (es : List (Value × Value)) : List Value := es.flatMap fun e => [e.1, e.2]

variable {ns : List Node} {jumps jumps' : Jumps}

/-- Nodes that are read as the keys and values of entries make the parameters that the entries
make. -/
theorem readEntries_eq {r : Node → Jumps → Except Fault (Value × Jumps)}
    (h : Reader.each r ns jumps = .ok (inTurn es, jumps')) (ps : List ParameterEntry) :
    readEntries r ns ps jumps =
      ((extend ps es).mapError Objection.fault).map fun qs => (qs, jumps') := by
  induction es generalizing ns jumps ps with
  | nil =>
    obtain ⟨rfl, rfl⟩ := Reader.each_eq_nil h
    rfl
  | cons e es ih =>
    obtain ⟨k, ms, j, rfl, hkey, hrest⟩ := Reader.each_eq_cons h
    obtain ⟨v, ns, j', rfl, hvalue, hrest⟩ := Reader.each_eq_cons hrest
    simp only [readEntries, hkey, hvalue, extend]
    cases make ps e.1 e.2 with
    | error o => rfl
    | ok p => exact ih hrest (ps ++ [p])

/-- A mapping whose nodes are read as the keys and values of entries makes the parameters that the
entries make. -/
theorem reader_mapping {src : Source} {depth : Nat} {n : Node} {anchor : Option Nat}
    {tag : Option String} {j : Jumps}
    (hn : Reader.resolve src n jumps = .ok (.mapping anchor tag ns true, j))
    (htag : Reader.ownTag? tag = none)
    (hes : Reader.each (Reader.value src depth) ns j = .ok (inTurn es, jumps')) :
    reader src (depth + 1) n jumps =
      ((ofEntries es).mapError Objection.fault).map fun ps => (ps, jumps') := by
  rw [reader, hn]
  simp only [htag, Option.isSome_none, Bool.false_eq_true, if_false, readEntries_eq hes, ofEntries]
  cases extend [] es <;> rfl

/-- The entries of a mapping are taken exactly if they are acceptable, and then as their texts; else
the fault is what there is to object to the first that may not stand there.  In particular a number
or a truth value and the text that it looks like are never taken together, whichever comes first. -/
theorem reader_of_mapping {src : Source} {depth : Nat} {n : Node} {anchor : Option Nat}
    {tag : Option String} {j : Jumps}
    (hn : Reader.resolve src n jumps = .ok (.mapping anchor tag ns true, j))
    (htag : Reader.ownTag? tag = none)
    (hes : Reader.each (Reader.value src depth) ns j = .ok (inTurn es, jumps')) :
    ((∃ r, reader src (depth + 1) n jumps = .ok r) ↔ Acceptable es) ∧
      (∀ ps i, reader src (depth + 1) n jumps = .ok (ps, i) → Rendered es ps ∧ i = jumps') ∧
      (∀ f, reader src (depth + 1) n jumps = .error f ↔
        ∃ o, Objection.First es o ∧ o.fault = f) ∧
      ∀ a b, a.1.Alike b.1 → [a, b].Sublist es ∨ [b, a].Sublist es →
        ∃ f, reader src (depth + 1) n jumps = .error f := by
  rw [reader_mapping hn htag hes]
  cases hmade : ofEntries es with
  | ok ps =>
    obtain ⟨hacceptable, hrendered⟩ := ofEntries_eq_ok_iff.mp hmade
    refine ⟨iff_of_true ⟨_, rfl⟩ hacceptable, ?_, fun f => iff_of_false nofun ?_, ?_⟩
    · rintro qs i ⟨⟩
      exact ⟨hrendered, rfl⟩
    · rintro ⟨o, ho, -⟩
      rw [← ofEntries_eq_error_iff, hmade] at ho
      cases ho
    · exact fun a b hab hsub => absurd hacceptable (not_acceptable_of_alike hab hsub)
  | error o =>
    refine ⟨iff_of_false nofun fun h => ?_, nofun, fun f => ?_, fun _ _ _ _ => ⟨_, rfl⟩⟩
    · obtain ⟨ps, hps⟩ := h.exists_rendered
      rw [ofEntries_eq_ok_iff.mpr ⟨h, hps⟩] at hmade
      cases hmade
    · have hfirst (x : Objection) : x.First es ↔ o = x := by
        rw [← ofEntries_eq_error_iff, hmade, Except.error.injEq]
      simp only [hfirst, exists_eq_left']
      change Except.error o.fault = .error f ↔ o.fault = f
      rw [Except.error.injEq]

/-- A scalar of a document. -/
def written (style : Yaml.Style) (text : String) : Node := .scalar none ⟨text, style, none⟩

/-- Two numbers and a truth value, as the names of a text, a number and null, then one more
entry. -/
def mixedNodes (key value : Node) : List Node :=
  [written .plain "1", written .plain "a", written .plain "2.5", written .plain "-7",
    written .plain "true", written .plain "~", key, value]

/-- The mapping of these entries. -/
def mixedMapping (key value : Node) : Node := .mapping none none (mixedNodes key value) true

/-- The entries before the last; 2.5 in the form of its bits. -/
def mixedEntries : List (Value × Value) :=
  [(.int 1, .text "a"), (.float (.finite false (5 * 2 ^ 50) (-51)), .int (-7)), (.bool true, .null)]

/-- Their texts. -/
def mixedParameters : List ParameterEntry := [("1", "a"), ("2.5", "-7"), ("true", "")]

/-- After these entries a mapping may have a new name.  The texts of the number and of the truth
value it may not have, and a list is objected to before the name that it is for. -/
theorem reader_of_mixedMapping :
    (∃ i, reader ⟨[]⟩ 2 (mixedMapping (written .plain "false") (written .plain ".inf")) 0 =
        .ok (mixedParameters ++ [("false", ".inf")], i)) ∧
      reader ⟨[]⟩ 2 (mixedMapping (written .doubleQuoted "1") (written .plain "b")) 0 =
        .error (.objection "duplicate parameter '1'") ∧
      reader ⟨[]⟩ 2 (mixedMapping (written .doubleQuoted "true") (written .plain "b")) 0 =
        .error (.objection "duplicate parameter 'true'") ∧
      reader ⟨[]⟩ 2 (mixedMapping (written .doubleQuoted "true") (.sequence none none [] true)) 0 =
        .error (.objection "parameter 'true' must have a scalar value") := by
  have hparameters : ofEntries mixedEntries = .ok mixedParameters := rfl
  have hbefore : Acceptable mixedEntries := (ofEntries_eq_ok_iff.mp hparameters).1
  have hrefused {k v : Node} {key value : Value} {o : Objection}
      (hes : Reader.each (Reader.value ⟨[]⟩ 1) (mixedNodes k v) 0 =
        .ok (inTurn (mixedEntries ++ [(key, value)]), 0))
      (ho : o.Against mixedEntries (key, value)) :
      reader ⟨[]⟩ 2 (mixedMapping k v) 0 = .error o.fault := by
    have hfirst : Objection.First (mixedEntries ++ [(key, value)]) o :=
      ⟨mixedEntries, (key, value), [], rfl, hbefore, ho⟩
    exact ((reader_of_mapping rfl rfl hes).2.2.1 _).mpr ⟨o, hfirst, rfl⟩
  refine ⟨?_, ?_, ?_, ?_⟩
  · have hes : Reader.each (Reader.value ⟨[]⟩ 1)
        (mixedNodes (written .plain "false") (written .plain ".inf")) 0 =
          .ok (inTurn (mixedEntries ++ [(.bool false, .float (.infinite false))]), 0) := rfl
    have hall : ofEntries (mixedEntries ++ [(.bool false, .float (.infinite false))]) =
        .ok (mixedParameters ++ [("false", ".inf")]) := rfl
    obtain ⟨hacceptable, htexts⟩ := ofEntries_eq_ok_iff.mp hall
    have htaken : ∃ r, reader ⟨[]⟩ 2
        (mixedMapping (written .plain "false") (written .plain ".inf")) 0 = .ok r :=
      (reader_of_mapping rfl rfl hes).1.mpr hacceptable
    obtain ⟨⟨ps, i⟩, hread⟩ := htaken
    have hrendered := ((reader_of_mapping rfl rfl hes).2.1 ps i hread).1
    exact ⟨i, hrendered.unique htexts ▸ hread⟩
  · have ho : (Objection.duplicate "1").Against mixedEntries (.text "1", .text "b") :=
      ⟨⟨.text _, by decide⟩, trivial, (.int 1, .text "a"), by simp [mixedEntries], .natural 1⟩
    exact hrefused rfl ho
  · have ho : (Objection.duplicate "true").Against mixedEntries (.text "true", .text "b") :=
      ⟨⟨.text _, by decide⟩, trivial, (.bool true, .null), by simp [mixedEntries], .yes⟩
    exact hrefused rfl ho
  · have ho : (Objection.noScalar "true").Against mixedEntries (.text "true", .sequence []) :=
      ⟨⟨.text _, by decide⟩, nofun⟩
    exact hrefused rfl ho

end ParameterEntry

end Marketplace
