import Marketplace.Proofs.Job.Custody
set_option autoImplicit false

/-!
# One run of a job

A worker that is alone with a job claims it, runs it and hands it back, while the clock goes on.
`World.Ran.spec` says what has then been stored, and `World.exists_ran` that a job that is due is
run.
-/

namespace Marketplace

/-! ## The parts of a turn -/

namespace Work

theorem turn_eq (work? : JobKind → Option (Job → Program JobResult)) :
    turn work? = .call (.job .claimNext) fun
      | .ok (some j) => (execute (work? j.kind) j).run.bind fun o => .done (some (j, o))
      | .ok none | .error _ => .done none := rfl

/-- The work is done between two looks at the clock. -/
theorem execute_eq (work : Job → Program JobResult) (j : Job) :
    (execute (some work) j).run = .call .now fun started =>
      (work j).bind fun result => (conclude j started result).run := by
  have hrun : (execute (some work) j).run = (do
      let started ← Program.ask .now
      let result ← work j
      (conclude j started result).run) := by
    simp [execute]
  exact hrun

/-- The job with the result is handed back, and whatever the job store answers, the run is over. -/
theorem conclude_eq (j : Job) (started : Instant) (result : JobResult) :
    (conclude j started result).run = .call .now fun ended =>
      match j.finish started ended result with
      | none => .done none
      | some k => .call (.job (.update k)) fun
        | .ok _ => .done (some ⟨verdict result, k⟩)
        | .error f => .done (some ⟨.error f.message, k⟩) := by
  refine congrArg (Program.call _) (funext fun ended => ?_)
  show (match j.finish started ended result with
    | none => pure none
    | some k => some <$> report k (verdict result)) = _
  cases j.finish started ended result with
  | none => rfl
  | some k =>
    refine congrArg (Program.call _) (funext fun r => ?_)
    rcases r with f | ⟨⟩ <;> rfl

end Work

namespace World

variable {w w' : World} {s s' : World × List Instant} {j k x : Job} {id : JobId}
  {result : JobResult} {times : List Instant}

/-! ## A clock that goes on -/

/-- Answers calls while the clock goes on: each call is made at the next of the given times, and
when there are no more of them the clock stands still. -/
def timed : Program.Handler (World × List Instant) := fun s c =>
  match s.2 with
  | [] => (s.1.handle c).map fun r => (r.1, (r.2, []))
  | t :: ts => (handle { s.1 with clock := t } c).map fun r => (r.1, (r.2, ts))

theorem exists_of_timed {c : Call} {r : c.Reply} (h : timed s c = some (r, s')) :
    ∃ t, handle { s.1 with clock := t } c = some (r, s'.1) := by
  unfold timed at h
  split at h
  · obtain ⟨r, hr, heq⟩ := Option.map_eq_some_iff.mp h
    cases heq
    exact ⟨s.1.clock, hr⟩
  · rename_i t ts _
    obtain ⟨r, hr, heq⟩ := Option.map_eq_some_iff.mp h
    cases heq
    exact ⟨t, hr⟩

/-- A call writes to the job store what its answer tells of. -/
theorem writes_of_handle {c : Call} {r : c.Reply} (h : w.handle c = some (r, w'))
    (hw : w.jobs.Distinct) : w.jobs.Writes (Deed.call c r).written? w'.jobs := by
  rw [handle_eq_act, Option.map_eq_some_iff] at h
  obtain ⟨⟨r', v, m⟩, hact, heq⟩ := h
  obtain ⟨rfl, rfl⟩ := Prod.mk.inj heq
  have hwrites := writes_of_act hact hw
  cases m with
  | none => exact hwrites
  | some m => cases m <;> exact hwrites

/-- The job is stored, under an identifier that no other job has, and runs. -/
structure Running (j : Job) (w : World) : Prop where
  distinct : w.jobs.Distinct
  stored : w.jobs.find? j.id = some j
  running : j.status = .running

/-- A call that is for clients leaves a running job alone. -/
theorem Running.handle {c : Call} {r : c.Reply} (hj : Running j w) (hc : c.isClient = true)
    (h : w.handle c = some (r, w')) : Running j w' := by
  have hwrites := writes_of_handle h hj.distinct
  refine ⟨hwrites.distinct, hwrites.find?_of_running hj.stored hj.running ?_, hj.running⟩
  intro k hk hid
  cases c with
  | job c =>
    cases h
    have hfind := hj.stored
    rw [← hid] at hfind
    have hupdate : c = .update k :=
      JobStore.eq_update_of_written hj.distinct hk hfind hj.running
    subst hupdate
    cases hc
  | _ => cases hk

theorem Running.timed {c : Call} {r : c.Reply} (hj : Running j s.1) (hc : c.isClient = true)
    (h : World.timed s c = some (r, s')) : Running j s'.1 := by
  obtain ⟨t, ht⟩ := exists_of_timed h
  have hnow : Running j { s.1 with clock := t } := ⟨hj.distinct, hj.stored, hj.running⟩
  exact hnow.handle hc ht

/-- So do programs for clients. -/
theorem Running.program {α : Type} {p : Program α} {a : α} (hj : Running j s.1)
    (hp : p.IsClient) (hrun : p.run World.timed s = some (a, s')) : Running j s'.1 :=
  hp.run_invariant (I := fun s => Running j s.1) (fun _ _ _ _ hc h hI => hI.timed hc h) hrun hj

/-- The job is what has been written last under an identifier: it is stored, or it has come to its
end and is gone. -/
structure Left (id : JobId) (k : Job) (w : World) : Prop where
  distinct : w.jobs.Distinct
  stored : w.jobs.find? id = some k ∨ (w.jobs.find? id = none ∧ k.status.isTerminal = true)

/-! ## A run -/

/-- A worker has claimed the job of the identifier and run it at these times.  Its work has made
calls that are for clients and come to the result, which is `JobResult.timedOut` if it was cut off,
and the job has been handed back. -/
def Ran (id : JobId) (result : JobResult) (times : List Instant) (w : World) (k : Job)
    (w' : World) : Prop :=
  ∃ (acts : Job → Program Unit) (rest : List Instant) (j : Job) (verdict : Except String Unit),
    (∀ j, (acts j).IsClient) ∧ j.id = id ∧
      (Work.turn fun _ => some fun j => (acts j).bind fun _ => .done result).run timed (w, times) =
        some (some (j, some ⟨verdict, k⟩), (w', rest))

/-- A job that is stored and runs is replaced by the job that is handed back. -/
theorem left_of_update {r : Call.Reply (.job (.update k))} (hj : Running j w) (hid : k.id = j.id)
    (h : w.handle (.job (.update k)) = some (r, w')) : Left j.id k w' := by
  have hfind := hj.stored
  rw [← hid] at hfind ⊢
  obtain ⟨t, ht⟩ := JobStore.exists_update hfind
  have hwrites := JobStore.writes_update hj.distinct ht
  simp only [World.handle, JobCall.step, ht] at h
  cases h
  exact ⟨hwrites.distinct, hwrites.find?_written⟩

/-- The end of a run of a job that is stored and runs. -/
theorem run_conclude {started : Instant} {o : Work.Outcome} (hj : Running j s.1)
    (h : (Work.conclude j started result).run.run timed s = some (some o, s')) :
    ∃ ended, j.finish started ended result = some o.job ∧ Left j.id o.job s'.1 := by
  rw [Work.conclude_eq, Program.run_call_eq_some_iff] at h
  obtain ⟨ended, u, hnow, hrest⟩ := h
  have hu := hj.timed rfl hnow
  refine ⟨ended, ?_⟩
  cases hfinish : j.finish started ended result with
  | none =>
    rw [hfinish] at hrest
    cases hrest
  | some k =>
    rw [hfinish, Program.run_call_eq_some_iff] at hrest
    obtain ⟨r, v, hupdate, hdone⟩ := hrest
    have hleft : Left j.id k v.1 := by
      obtain ⟨t, ht⟩ := exists_of_timed hupdate
      have hthen : Running j { u.1 with clock := t } := ⟨hu.distinct, hu.stored, hu.running⟩
      exact left_of_update hthen (Job.id_of_finish hfinish) ht
    rcases r with f | ⟨⟩
    · cases hdone
      exact ⟨rfl, hleft⟩
    · cases hdone
      exact ⟨rfl, hleft⟩

/-- A claimed job is stored and runs, and was due. -/
theorem run_claimNext {r : Call.Reply (.job .claimNext)} (hw : s.1.jobs.Distinct)
    (h : timed s (.job .claimNext) = some (r, s')) :
    r = .ok none ∨ ∃ x now, s.1.jobs.find? x.id = some x ∧ x.isDue now = true ∧
      r = .ok (some (x.claim now)) ∧ Running (x.claim now) s'.1 := by
  obtain ⟨now, hnow⟩ := exists_of_timed h
  obtain ⟨hwrites, hdue⟩ := JobStore.writes_claimNext hw now
  simp only [handle, JobCall.step, Option.some.injEq, Prod.mk.injEq] at hnow
  obtain ⟨rfl, hs'⟩ := hnow
  cases hclaimed : (s.1.jobs.claimNext now).1 with
  | none => exact Or.inl rfl
  | some k =>
    obtain ⟨x, hx, hdue, rfl⟩ := hdue k hclaimed
    refine Or.inr ⟨x, now, hx, hdue, rfl, ?_⟩
    rw [hclaimed] at hwrites
    rw [← hs']
    exact ⟨hwrites.distinct, hwrites.find?_of_written rfl rfl, rfl⟩

/-- What is stored when a job has been run: it was due, and has been replaced by the job with the
result. -/
theorem Ran.spec (h : Ran id result times w k w') (hw : w.jobs.Distinct) :
    ∃ x now started ended, w.jobs.find? id = some x ∧ x.isDue now = true ∧
      (x.claim now).finish started ended result = some k ∧ Left id k w' := by
  obtain ⟨acts, rest, j, verdict, hacts, rfl, hrun⟩ := h
  rw [Work.turn_eq, Program.run_call_eq_some_iff] at hrun
  obtain ⟨r, u, hclaim, hrest⟩ := hrun
  rcases run_claimNext hw hclaim with rfl | ⟨x, now, hx, hdue, rfl, hrunning⟩
  · cases hrest
  · simp only [Program.run_bind, Option.bind_eq_some_iff] at hrest
    obtain ⟨⟨o, v⟩, hexecute, hdone⟩ := hrest
    cases hdone
    rw [Work.execute_eq, Program.run_call_eq_some_iff] at hexecute
    obtain ⟨started, u', hstarted, hwork⟩ := hexecute
    rw [Program.bind_assoc, Program.run_bind, Option.bind_eq_some_iff] at hwork
    obtain ⟨⟨⟨⟩, v'⟩, hacted, hconclude⟩ := hwork
    have hacting := (hrunning.timed rfl hstarted).program (hacts _) hacted
    obtain ⟨ended, hfinish, hleft⟩ := run_conclude hacting hconclude
    exact ⟨x, now, started, ended, hx, hdue, hfinish, hleft⟩

/-- A job that is due is run if it comes before all others that are due. -/
theorem exists_ran {now started ended : Instant} (hw : w.jobs.Distinct)
    (hx : w.jobs.find? id = some x) (hdue : x.isDue now = true)
    (hfirst : ∀ y ∈ w.jobs.jobs, y.isDue now = true → y.id = id ∨ x.isBefore y = true)
    (hfinish : (x.claim now).finish started ended result = some k) :
    ∃ w', Ran id result [now, started, ended] w k w' := by
  have hclaim := JobStore.claimNext_eq hw hx hdue hfirst
  obtain ⟨-, hid⟩ := JobStore.mem_of_find? hx
  have hclaimed : Running (x.claim now) { w with
      jobs := { w.jobs with jobs := JobStore.replace w.jobs.jobs (x.claim now) } } := by
    subst hid
    have hwrites := JobStore.writes_replace (k := x.claim now) hw hx
    exact ⟨hwrites.distinct, hwrites.find?_of_written rfl rfl, rfl⟩
  have hfind := hclaimed.stored
  rw [← Job.id_of_finish hfinish] at hfind
  obtain ⟨t, ht⟩ := JobStore.exists_update hfind
  refine ⟨{ w with jobs := t, clock := ended }, fun _ => .done (), [], x.claim now,
    Work.verdict result, fun _ => trivial, hid, ?_⟩
  simp only [Work.turn_eq, Program.run, timed, handle, JobCall.step, hclaim, Option.map_some,
    Work.execute_eq, Work.conclude_eq, Program.bind, hfinish, ht]

end World

end Marketplace
