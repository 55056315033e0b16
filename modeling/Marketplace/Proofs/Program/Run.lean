import Marketplace.Program.World
set_option autoImplicit false

/-!
# Runs of programs

How a run of a bind goes, which calls a program may make at all (`Program.Calls`), how it ends if it
is answered in certain ways (`Program.Ends`), and how far it has come after some of its calls
(`Program.Made`).
-/

namespace Marketplace.Program

variable {α β ε σ : Type}

/-! ## Runs of binds -/

/-- A run of a call is an answer to it and a run of the rest. -/
theorem run_call_eq_some_iff {h : Handler σ} {c : Call} {next : c.Reply → Program α} {s t : σ}
    {a : α} :
    (call c next).run h s = some (a, t) ↔
      ∃ r u, h s c = some (r, u) ∧ (next r).run h u = some (a, t) := by
  simp only [run]
  constructor
  · intro hrun
    split at hrun
    · cases hrun
    · rename_i r u hc
      exact ⟨r, u, hc, hrun⟩
  · rintro ⟨r, u, hc, hrun⟩
    rw [hc]
    exact hrun

theorem run_bind (h : Handler σ) (p : Program α) (f : α → Program β) (s : σ) :
    (p.bind f).run h s = (p.run h s).bind fun r => (f r.1).run h r.2 := by
  induction p generalizing s with
  | done a => rfl
  | call c next ih =>
    simp only [bind, run]
    cases h s c with
    | none => rfl
    | some r => exact ih r.1 r.2

/-- What is run after a program that answers or fails. -/
def after (f : α → ExceptT ε Program β) : Except ε α → Program (Except ε β)
  | .ok a => (f a).run
  | .error e => done (.error e)

theorem bind_exceptT (x : ExceptT ε Program α) (f : α → ExceptT ε Program β) :
    (x >>= f).run = x.run.bind (after f) := by
  rw [ExceptT.run_bind]
  congr 1
  funext r
  cases r <;> rfl

/-- A run of a bind that succeeds is one of the first program and one of the second. -/
theorem run_bind_ok_iff {h : Handler σ} {x : ExceptT ε Program α}
    {f : α → ExceptT ε Program β} {s t : σ} {b : β} :
    (x >>= f).run.run h s = some (.ok b, t) ↔
      ∃ a u, x.run.run h s = some (.ok a, u) ∧ (f a).run.run h u = some (.ok b, t) := by
  rw [bind_exceptT, run_bind, Option.bind_eq_some_iff]
  constructor
  · rintro ⟨⟨r, u⟩, hr, ht⟩
    cases r with
    | error e => cases ht
    | ok a => exact ⟨a, u, hr, ht⟩
  · rintro ⟨a, u, hr, ht⟩
    exact ⟨(.ok a, u), hr, ht⟩

/-- After an answer the run goes on. -/
theorem run_bind_of_ok {h : Handler σ} {x : ExceptT ε Program α} {f : α → ExceptT ε Program β}
    {s t : σ} {a : α} (hx : x.run.run h s = some (.ok a, t)) :
    (x >>= f).run.run h s = (f a).run.run h t := by
  rw [bind_exceptT, run_bind, hx]
  rfl

/-- After a failure it does not. -/
theorem run_bind_of_error {h : Handler σ} {x : ExceptT ε Program α}
    {f : α → ExceptT ε Program β} {s t : σ} {e : ε} (hx : x.run.run h s = some (.error e, t)) :
    (x >>= f).run.run h s = some (.error e, t) := by
  rw [bind_exceptT, run_bind, hx]
  rfl

theorem eq_ok_of_toOption {x : Except ε α} {a : α} (h : x.toOption = some a) : x = .ok a := by
  cases x with
  | error e => cases h
  | ok b =>
    cases h
    rfl

/-- A run that has been tested to end well, with an answer and a state of some kind, does so. -/
theorem exists_of_any_ok {x : Option (Except ε α × σ)} {q : Except ε α × σ → α → Bool}
    (h : (x.any fun r => r.1.toOption.any (q r)) = true) :
    ∃ a s, x = some (.ok a, s) ∧ q (.ok a, s) a = true := by
  obtain ⟨⟨r, s⟩, hrun, hanswer⟩ := (Option.any_eq_true _ _).mp h
  obtain ⟨a, ha, hq⟩ := (Option.any_eq_true _ _).mp hanswer
  obtain rfl : r = .ok a := eq_ok_of_toOption ha
  exact ⟨a, s, hrun, hq⟩

/-! ## The calls that a program may make -/

/-- Every call that the program may make satisfies the condition, whatever it is answered. -/
def Calls (P : Call → Prop) : Program α → Prop
  | done _ => True
  | call c next => P c ∧ ∀ r, (next r).Calls P

section Calls

variable {P Q : Call → Prop}

theorem Calls.bind {p : Program α} {f : α → Program β} (hp : p.Calls P)
    (hf : ∀ a, (f a).Calls P) : (p.bind f).Calls P := by
  induction p with
  | done a => exact hf a
  | call c next ih => exact ⟨hp.1, fun r => ih r (hp.2 r)⟩

theorem Calls.imp {p : Program α} (hp : p.Calls P) (hPQ : ∀ c, P c → Q c) : p.Calls Q := by
  induction p with
  | done a => trivial
  | call c next ih => exact ⟨hPQ c hp.1, fun r => ih r (hp.2 r)⟩

/-- What holds of the state before a program and is kept by each call that it may make holds
afterwards. -/
theorem Calls.run_invariant {h : Handler σ} {I : σ → Prop} {p : Program α} (hp : p.Calls P)
    (hstep : ∀ s t c r, P c → h s c = some (r, t) → I s → I t) {s t : σ} {a : α}
    (hrun : p.run h s = some (a, t)) (hs : I s) : I t := by
  induction p generalizing s with
  | done b =>
    cases hrun
    exact hs
  | call c next ih =>
    obtain ⟨r, u, hc, hrest⟩ := run_call_eq_some_iff.mp hrun
    exact ih r (hp.2 r) hrest (hstep s u c r hp.1 hc hs)

theorem Calls.exceptT_bind {x : ExceptT ε Program α} {f : α → ExceptT ε Program β}
    (hx : x.run.Calls P) (hf : ∀ a, (f a).run.Calls P) : (x >>= f).run.Calls P := by
  rw [bind_exceptT]
  refine hx.bind ?_
  rintro (e | a)
  · trivial
  · exact hf a

end Calls

/-! ## The answers that a program is given -/

/-- However the program is answered, as long as all answers are such ones, it ends with a result of
this kind. -/
def Ends (answers : (c : Call) → c.Reply → Prop) (post : α → Prop) : Program α → Prop
  | done a => post a
  | call c next => ∀ r, answers c r → (next r).Ends answers post

section Ends

variable {answers : (c : Call) → c.Reply → Prop} {post : α → Prop}

theorem Ends.bind {p : Program β} {f : β → Program α} {mid : β → Prop} (hp : p.Ends answers mid)
    (hf : ∀ b, mid b → (f b).Ends answers post) : (p.bind f).Ends answers post := by
  induction p with
  | done b => exact hf b hp
  | call c next ih => exact fun r hr => ih r (hp r hr)

/-- The fewer answers there may be, the more is known of the result. -/
theorem Ends.anti {answers' : (c : Call) → c.Reply → Prop} {p : Program α}
    (hp : p.Ends answers post) (hanswers : ∀ c r, answers' c r → answers c r) :
    p.Ends answers' post := by
  induction p with
  | done a => exact hp
  | call c next ih => exact fun r hr => ih r (hp r (hanswers c r hr))

/-- A run from a state in which all calls are answered so, as they then are after each of them, ends
so. -/
theorem Ends.of_run_from {h : Handler σ} {I : σ → Prop} {p : Program α} (hp : p.Ends answers post)
    (hstep : ∀ s t c r, I s → h s c = some (r, t) → answers c r ∧ I t) {s t : σ} {a : α} (hs : I s)
    (hrun : p.run h s = some (a, t)) : post a := by
  induction p generalizing s with
  | done b =>
    cases hrun
    exact hp
  | call c next ih =>
    obtain ⟨r, u, hc, hrest⟩ := run_call_eq_some_iff.mp hrun
    obtain ⟨hr, hu⟩ := hstep s u c r hs hc
    exact ih r (hp r hr) hu hrest

/-- A run whose calls are all answered so ends so. -/
theorem Ends.of_run {h : Handler σ} {p : Program α} (hp : p.Ends answers post)
    (hstep : ∀ s t c r, h s c = some (r, t) → answers c r) {s t : σ} {a : α}
    (hrun : p.run h s = some (a, t)) : post a :=
  hp.of_run_from (I := fun _ => True) (fun s t c r _ hc => ⟨hstep s t c r hc, trivial⟩) trivial hrun

/-- However the program is answered, as long as all answers are such ones, it makes such calls
only. -/
def CallsIf (answers : (c : Call) → c.Reply → Prop) (P : Call → Prop) : Program α → Prop
  | done _ => True
  | call c next => P c ∧ ∀ r, answers c r → (next r).CallsIf answers P

variable {P : Call → Prop}

theorem CallsIf.bind {p : Program β} {f : β → Program α} {mid : β → Prop}
    (hp : p.CallsIf answers P) (hends : p.Ends answers mid)
    (hf : ∀ b, mid b → (f b).CallsIf answers P) : (p.bind f).CallsIf answers P := by
  induction p with
  | done b => exact hf b hends
  | call c next ih => exact ⟨hp.1, fun r hr => ih r (hp.2 r hr) (hends r hr)⟩

theorem CallsIf.anti {answers' : (c : Call) → c.Reply → Prop} {p : Program α}
    (hp : p.CallsIf answers P) (hanswers : ∀ c r, answers' c r → answers c r) :
    p.CallsIf answers' P := by
  induction p with
  | done a => trivial
  | call c next ih => exact ⟨hp.1, fun r hr => ih r (hp.2 r (hanswers c r hr))⟩

theorem Calls.callsIf {p : Program α} (hp : p.Calls P) : p.CallsIf answers P := by
  induction p with
  | done a => trivial
  | call c next ih => exact ⟨hp.1, fun r _ => ih r (hp.2 r)⟩

end Ends

/-! ## Programs on their way -/

/-- Alone, the first program makes these calls one after the other; the second program is what is
then left of it. -/
inductive Made (h : Handler σ) : Program α → σ → List Call → Program α → σ → Prop
  | none (p : Program α) (s : σ) : Made h p s [] p s
  | next {c : Call} {next : c.Reply → Program α} {s t u : σ} {r : c.Reply} {cs : List Call}
      {q : Program α} (hc : h s c = some (r, t)) (hq : Made h (next r) t cs q u) :
      Made h (call c next) s (c :: cs) q u

/-- What is left of a program runs as the whole program does. -/
theorem Made.run_eq {h : Handler σ} {p q : Program α} {s t : σ} {cs : List Call}
    (hm : Made h p s cs q t) : p.run h s = q.run h t := by
  induction hm with
  | none => rfl
  | next hc _ ih => rw [← ih, run, hc]

/-- A run makes calls. -/
theorem exists_made_of_run {h : Handler σ} {p : Program α} {s t : σ} {a : α}
    (hrun : p.run h s = some (a, t)) : ∃ cs, Made h p s cs (done a) t := by
  induction p generalizing s with
  | done b =>
    cases hrun
    exact ⟨[], .none _ _⟩
  | call c next ih =>
    obtain ⟨r, u, hc, hrest⟩ := run_call_eq_some_iff.mp hrun
    obtain ⟨cs, hm⟩ := ih r hrest
    exact ⟨c :: cs, .next hc hm⟩

/-- The calls of a bind are those of both programs. -/
theorem Made.bind {h : Handler σ} {p : Program α} {f : α → Program β} {q : Program β}
    {s t u : σ} {cs ds : List Call} {a : α} (hp : Made h p s cs (done a) t)
    (hf : Made h (f a) t ds q u) : Made h (p.bind f) s (cs ++ ds) q u := by
  generalize hdone : done a = r at hp
  induction hp with
  | none =>
    subst hdone
    exact hf
  | next hc _ ih => exact .next hc (ih hf hdone)

theorem Made.map {h : Handler σ} {p : Program α} {s t : σ} {cs : List Call} {a : α}
    (hp : Made h p s cs (done a) t) (f : α → β) :
    Made h (p.bind fun a => done (f a)) s cs (done (f a)) t := by
  have hmade := hp.bind (f := fun a => done (f a)) (.none _ _)
  rwa [List.append_nil] at hmade

/-- What holds of the state before a program and is kept by each call that it makes holds wherever
the program has come. -/
theorem Made.invariant {h : Handler σ} {P : Call → Prop} {I : σ → Prop}
    (hstep : ∀ s t c r, P c → h s c = some (r, t) → I s → I t)
    {p q : Program α} {s t : σ} {cs : List Call} (hm : Made h p s cs q t)
    (hcs : ∀ c ∈ cs, P c) (hs : I s) : I t := by
  induction hm with
  | none => exact hs
  | next hc _ ih =>
    refine ih (fun c hmem => hcs c (List.mem_cons_of_mem _ hmem)) ?_
    exact hstep _ _ _ _ (hcs _ List.mem_cons_self) hc hs

/-- On the way from a state in which all calls are answered so, as they then are after each of them,
a program makes such calls only. -/
theorem Made.of_callsIf {h : Handler σ} {answers : (c : Call) → c.Reply → Prop} {P : Call → Prop}
    {I : σ → Prop} (hstep : ∀ s t c r, I s → h s c = some (r, t) → answers c r ∧ I t)
    {p q : Program α} {s t : σ} {cs : List Call} (hm : Made h p s cs q t) (hs : I s)
    (hp : p.CallsIf answers P) : ∀ c ∈ cs, P c := by
  induction hm with
  | none =>
    intro c hc
    cases hc
  | next hc _ ih =>
    obtain ⟨hr, hu⟩ := hstep _ _ _ _ hs hc
    intro c hmem
    rcases List.mem_cons.mp hmem with rfl | hmem
    · exact hp.1
    · exact ih hu (hp.2 _ hr) c hmem

/-- A program makes no calls but those that it may make. -/
theorem Made.of_calls {h : Handler σ} {P : Call → Prop} {p q : Program α} {s t : σ}
    {cs : List Call} (hm : Made h p s cs q t) (hp : p.Calls P) : ∀ c ∈ cs, P c := by
  induction hm with
  | none =>
    intro c hc
    cases hc
  | next hc _ ih =>
    intro c hmem
    rcases List.mem_cons.mp hmem with rfl | hmem
    · exact hp.1
    · exact ih (hp.2 _) c hmem

end Marketplace.Program
