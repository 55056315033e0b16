import Marketplace.Proofs.Program.Pool
import Marketplace.Proofs.Program.Run
set_option autoImplicit false

/-!
# What has happened in a pool

`Pool.Step` says that something happens, and a history says what: which activity made which call
with which answer, in order.  An activity is known by its place, which it keeps for ever.  Every
reachable pool has a history (`Pool.Reachable.exists_past`).

Most properties are proved of reachable pools, where the past is forgotten.  What is said of the
order of things, of custody and of serial histories say, needs the past as well; then the same rules
are used with a list of events beside the pool, and the two notions differ in nothing else.
-/

namespace Marketplace

/-- What an activity does in one step. -/
inductive Deed
  /-- It makes a call and is answered. -/
  | call (c : Call) (r : c.Reply)
  /-- It does the second half of its last call. -/
  | finish
  /-- It is dropped. -/
  | drop

/-- What the activity at a place does. -/
structure Event where
  place : Nat
  deed : Deed

namespace Activity

/-- A step of an activity, with what it does. -/
inductive Does (w : World) (a : Activity) : Deed → World → Activity → Prop
  | call {c : Call} {next : c.Reply → Program Unit} {r : c.Reply} {w' : World}
      {m : Option Remainder} (hprogram : a.program = .call c next) (hwhole : a.remainder = none)
      (hallows : a.allows c = true) (hact : w.act c = some (r, w', m)) :
    Does w a (.call c r) w' (a.after c (next r) m)
  | finish {m : Remainder} (hhalf : a.remainder = some m) :
    Does w a .finish (m.finish w) (a.finished m)
  | drop (hwhole : a.remainder = none) : Does w a .drop (a.release w) ended

/-- A step is a deed whose kind has been forgotten. -/
theorem step_iff_exists_does {w w' : World} {a a' : Activity} :
    a.Step w w' a' ↔ ∃ d, a.Does w d w' a' := by
  constructor
  · intro h
    cases h with
    | call hprogram hwhole hallows hact => exact ⟨_, .call hprogram hwhole hallows hact⟩
    | finish hhalf => exact ⟨_, .finish hhalf⟩
    | drop hwhole => exact ⟨_, .drop hwhole⟩
  · rintro ⟨d, h⟩
    cases h with
    | call hprogram hwhole hallows hact => exact .call hprogram hwhole hallows hact
    | finish hhalf => exact .finish hhalf
    | drop hwhole => exact .drop hwhole

/-- The activity does what comes next, unless it has to wait; a program that is over is dropped. -/
def proceed? (w : World) (a : Activity) : Option (Deed × World × Activity) :=
  match a.remainder, a.program with
  | some m, _ => some (.finish, m.finish w, a.finished m)
  | none, .done _ => some (.drop, a.release w, ended)
  | none, .call c next =>
    if a.allows c then (w.act c).map fun r => (.call c r.1, r.2.1, a.after c (next r.1) r.2.2)
    else none

/-- The computed deed is one of those that the rules allow. -/
theorem does_of_proceed? {w w' : World} {a a' : Activity} {d : Deed}
    (h : a.proceed? w = some (d, w', a')) : a.Does w d w' a' := by
  simp only [proceed?] at h
  split at h
  · rename_i hhalf
    cases h
    exact .finish hhalf
  · rename_i hwhole hprogram
    cases h
    exact .drop hwhole
  · rename_i c next hwhole hprogram
    split at h
    · rename_i hallows
      obtain ⟨⟨r, v, m⟩, hact, heq⟩ := Option.map_eq_some_iff.mp h
      cases heq
      exact .call hprogram hwhole hallows hact
    · cases h

end Activity

namespace Pool

variable {admitted : Program Unit → Prop} {P Q : Pool} {log : List Event} {i : Nat}
  {a a' : Activity} {w' : World} {d : Deed}

/-- The pool when the activity at a place has gone a step further. -/
def moved (P : Pool) (i : Nat) (w : World) (a : Activity) : Pool := ⟨w, P.activities.set i a⟩

/-- A pool that these events have led to, from a world on in which nothing has happened yet. -/
inductive Past (admitted : Program Unit → Prop) : List Event → Pool → Prop
  | start (clock : Instant) (retention : Nat) : Past admitted [] ⟨.start clock retention, []⟩
  | begin {log : List Event} {P : Pool} {p : Program Unit} (h : Past admitted log P)
      (hp : admitted p) : Past admitted log ⟨P.world, P.activities ++ [.start p]⟩
  | environment {log : List Event} {P : Pool} (h : Past admitted log P) (clock : Instant)
      (files : Table String FileContent) :
    Past admitted log ⟨{ P.world with clock := clock, files := files }, P.activities⟩
  | deed {log : List Event} {P : Pool} {i : Nat} {a a' : Activity} {d : Deed} {w' : World}
      (h : Past admitted log P) (ha : P.activities[i]? = some a) (hd : a.Does P.world d w' a') :
    Past admitted (log ++ [⟨i, d⟩]) (P.moved i w' a')

/-- Whoever does something is one of a list of activities. -/
theorem split_at (ha : P.activities[i]? = some a) :
    ∃ as bs, as.length = i ∧ P = ⟨P.world, as ++ a :: bs⟩ ∧
      ∀ w' a', P.moved i w' a' = ⟨w', as ++ a' :: bs⟩ := by
  obtain ⟨hi, rfl⟩ := List.getElem?_eq_some_iff.mp ha
  refine ⟨P.activities.take i, P.activities.drop (i + 1), ?_, ?_, fun w' a' => ?_⟩
  · rw [List.length_take, Nat.min_eq_left (Nat.le_of_lt hi)]
  · rw [List.getElem_cons_drop, List.take_append_drop]
  · rw [moved, List.set_eq_take_append_cons_drop, if_pos hi]

/-- A deed of an activity is a step of the pool. -/
theorem Step.of_does (ha : P.activities[i]? = some a) (hd : a.Does P.world d w' a') :
    P.Step admitted (P.moved i w' a') := by
  obtain ⟨as, bs, -, hP, hmoved⟩ := split_at ha
  rw [hmoved, hP]
  exact .move as bs (Activity.step_iff_exists_does.mpr ⟨d, hd⟩)

/-- Whatever is known of reachable pools is known of a pool with a past. -/
theorem Past.reachable (h : P.Past admitted log) : P.Reachable admitted := by
  induction h with
  | start clock retention => exact .start clock retention
  | begin _ hp ih => exact ih.step (.start hp)
  | environment _ clock files ih => exact ih.step (.environment clock files)
  | deed _ ha hd ih => exact ih.step (.of_does ha hd)

theorem Reachable.exists_past (h : P.Reachable admitted) : ∃ log, P.Past admitted log := by
  induction h with
  | start clock retention => exact ⟨[], .start clock retention⟩
  | @step P Q _ hst ih =>
    obtain ⟨log, hlog⟩ := ih
    cases hst with
    | start hp => exact ⟨log, hlog.begin hp⟩
    | environment clock files => exact ⟨log, hlog.environment clock files⟩
    | @move w w' a a' as bs ha =>
      obtain ⟨d, hd⟩ := Activity.step_iff_exists_does.mp ha
      have hdone := hlog.deed (i := as.length) (a := a) (by simp) hd
      refine ⟨log ++ [⟨as.length, d⟩], ?_⟩
      simpa [moved] using hdone

/-- A past with programs of one kind is a past with programs of any wider kind. -/
theorem Past.mono {admitted' : Program Unit → Prop} (h : P.Past admitted log)
    (hmono : ∀ p, admitted p → admitted' p) : P.Past admitted' log := by
  induction h with
  | start clock retention => exact .start clock retention
  | begin _ hp ih => exact ih.begin (hmono _ hp)
  | environment _ clock files ih => exact ih.environment clock files
  | deed _ ha hd ih => exact ih.deed ha hd

/-- Any admitted programs may begin. -/
theorem Past.begin_all (h : P.Past admitted log) {ps : List (Program Unit)}
    (hps : ∀ p ∈ ps, admitted p) :
    Past admitted log ⟨P.world, P.activities ++ ps.map .start⟩ := by
  induction ps generalizing P with
  | nil => simpa using h
  | cons p ps ih =>
    have hnext := ih (h.begin (hps p (by simp))) fun q hq => hps q (by simp [hq])
    simpa using hnext

/-- What the activities at the given places do, one after the other, and the pool then. -/
def record : List Nat → Pool → Option (List Event × Pool)
  | [], P => some ([], P)
  | i :: is, P =>
    P.activities[i]?.bind fun a =>
      (a.proceed? P.world).bind fun r =>
        (record is (P.moved i r.2.1 r.2.2)).map fun t => (⟨i, r.1⟩ :: t.1, t.2)

theorem Past.record {is : List Nat} {later : List Event} (h : P.Past admitted log)
    (hrecord : Pool.record is P = some (later, Q)) : Q.Past admitted (log ++ later) := by
  induction is generalizing P log later with
  | nil =>
    cases hrecord
    simpa using h
  | cons i is ih =>
    simp only [Pool.record, Option.bind_eq_some_iff, Option.map_eq_some_iff] at hrecord
    obtain ⟨a, ha, ⟨d, w', a'⟩, hproceed, ⟨rest, R⟩, hrest, heq⟩ := hrecord
    cases heq
    have hdone := ih (h.deed ha (Activity.does_of_proceed? hproceed)) hrest
    simpa using hdone

/-! ## Activities by place -/

theorem getElem?_moved_self (ha : P.activities[i]? = some a) (w' : World) (a' : Activity) :
    (P.moved i w' a').activities[i]? = some a' := by
  obtain ⟨hi, -⟩ := List.getElem?_eq_some_iff.mp ha
  exact List.getElem?_set_self hi

theorem getElem?_moved_ne {j : Nat} (hj : j ≠ i) (P : Pool) (w' : World) (a' : Activity) :
    (P.moved i w' a').activities[j]? = P.activities[j]? :=
  List.getElem?_set_ne (Ne.symm hj)

/-- Whoever is in a pool that one more activity has come to. -/
theorem getElem?_begun {j : Nat} {x : Activity} :
    (P.activities ++ [x])[j]? = some a ↔
      P.activities[j]? = some a ∨ (j = P.activities.length ∧ a = x) := by
  rcases Nat.lt_or_ge j P.activities.length with hj | hj
  · rw [List.getElem?_append_left hj]
    have hne : j ≠ P.activities.length := Nat.ne_of_lt hj
    simp [hne]
  · rw [List.getElem?_append_right hj, List.getElem?_eq_none hj, List.getElem?_singleton]
    have hiff : j - P.activities.length = 0 ↔ j = P.activities.length := by omega
    simp [hiff, eq_comm]

/-- If programs make certain calls only, nobody on its way makes any other one. -/
theorem Past.calls {allowed : Call → Prop} (h : P.Past admitted log)
    (hcalls : ∀ p, admitted p → p.Calls allowed) (ha : P.activities[i]? = some a) :
    a.program.Calls allowed := by
  induction h generalizing i a with
  | start clock retention => cases ha
  | begin _ hp ih =>
    rcases getElem?_begun.mp ha with hold | ⟨-, rfl⟩
    · exact ih hold
    · exact hcalls _ hp
  | environment _ clock files ih => exact ih ha
  | @deed log P i' x x' d w' _ hx hd ih =>
    by_cases hi : i = i'
    · subst hi
      rw [getElem?_moved_self hx] at ha
      cases ha
      have hbefore := ih hx
      cases hd with
      | call hprogram =>
        rw [hprogram] at hbefore
        exact hbefore.2 _
      | @finish m _ => cases m <;> exact hbefore
      | drop _ => trivial
    · rw [getElem?_moved_ne hi] at ha
      exact ih ha

end Pool

end Marketplace
