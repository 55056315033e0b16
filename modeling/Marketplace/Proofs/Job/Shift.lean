import Mathlib.Data.List.Perm.Subperm
import Marketplace.Proofs.Job.Drain
import Marketplace.Server.Running
set_option autoImplicit false

/-!
# Shifts are loops

The executor of a shift is always a loop that can be reached, and the runs that the shift waits for
are runs of that loop (`Shift.Tracks`).  So what is true of every loop is true of a server that
answers requests and lets its executor work: it never runs more jobs than it has workers, and with
fewer than `2 ^ 32` workers nothing is left to wait for when the executor has ended
(`Shift.Worked.bounded`).

The two are written apart: a loop knows which jobs run, a shift knows which runs are pending and
what they do.  Every operation of the shift is a few operations of the loop, and the lemmas of
`Shift.Tracks` say which, one for each operation.
-/

namespace Marketplace

namespace Executor

namespace Loop

/-- The loop between two operations.  An executor that is stopping waits for what still runs, any
other one looks for a job. -/
def between (x : Executor) : Loop := settled (if x.stopping then .ending else .looking) x

namespace Reachable

variable {e x : Executor}

theorem between_start (he : e.running = []) (hgoes : e.stopping = false) :
    Reachable e (between e) := by
  rw [between, hgoes]
  exact .initial he

/-- A claim takes a permit, and the loop looks for the next job. -/
theorem between_claim (h : Reachable e (between x)) (hmay : x.mayClaim = true) (id : JobId) :
    Reachable e (between (x.claim id)) := by
  have hgoes : x.stopping = false := by
    rw [mayClaim, Bool.and_eq_true, Bool.not_eq_true'] at hmay
    exact hmay.1
  have hgoes' : (x.claim id).stopping = false := hgoes
  rw [between, hgoes] at h
  rw [between, hgoes']
  exact h.claim hmay id

/-- An executor may be told to stop at any time between two operations, also more than once. -/
theorem between_stop (h : Reachable e (between x)) : Reachable e (between x.stop) := by
  cases hstopping : x.stopping with
  | false =>
    rw [between, hstopping] at h
    exact h.stop
  | true =>
    have hstop : x.stop = x := by rw [Executor.stop, ← hstopping]
    rw [hstop]
    exact h

/-- An executor that has ended can end its loop. -/
theorem between_last (h : Reachable e (between x)) (hended : x.hasEnded = true) :
    Reachable e (settled .ended x) := by
  have hstopping : x.stopping = true := by
    rw [hasEnded, Bool.and_eq_true] at hended
    exact hended.1
  rw [between, hstopping] at h
  exact h.last hended

end Reachable

end Loop

end Executor

namespace Shift

open Executor (Loop)

variable {τ : Type} {site : Site τ} {s : Shift τ} {e x : Executor} {ids ids' : List JobId}

theorem mem_onExecutor {f : Executor → Executor} {y : Executor} :
    y ∈ (s.onExecutor f).executor ↔ ∃ x ∈ s.executor, f x = y :=
  Option.map_eq_some_iff

/-- A call of a shift changes the state of the site alone, not the executor and not what is
pending. -/
theorem exists_of_ask {c : Call} {r : c.Reply × Shift τ} (hr : s.ask site c = some r) :
    ∃ t, r.2 = { s with state := t } := by
  obtain ⟨a, -, rfl⟩ := Option.map_eq_some_iff.mp hr
  exact ⟨a.2, rfl⟩

/-- The jobs of those runs that the executor at work has claimed.  Runs of an executor that has been
stopped before may still be pending, and are none of this one's. -/
def currentIds (rs : List PendingRun) : List JobId := (rs.filter (·.current)).map (·.job.id)

theorem currentIds_append (rs rs' : List PendingRun) :
    currentIds (rs ++ rs') = currentIds rs ++ currentIds rs' := by
  rw [currentIds, List.filter_append, List.map_append]
  rfl

theorem currentIds_cons (r : PendingRun) (rs : List PendingRun) :
    currentIds (r :: rs) = currentIds [r] ++ currentIds rs :=
  currentIds_append [r] rs

theorem currentIds_perm {rs rs' : List PendingRun} (h : rs.Perm rs') :
    (currentIds rs).Perm (currentIds rs') :=
  (h.filter _).map _

/-- The executor is a loop that started as it says, and it runs the claimed jobs that have not been
begun and those whose runs are pending.  The identifiers `ids` are those of the jobs that an
operation of the shift has in its hands: claimed, but not yet among the pending runs. -/
structure Tracks (e : Executor) (ids : List JobId) (s : Shift τ) : Prop where
  loop : ∀ x ∈ s.executor, Loop.Reachable e (.between x)
  runs : ∀ x ∈ s.executor, (ids ++ currentIds s.pending).Subperm x.running

namespace Tracks

/-- Nothing runs at the start, so that nothing has to be tracked but what was pending before. -/
theorem start (hfree : currentIds s.pending = []) {n : Nat} (he : Executor.start? n = some e) :
    Tracks e [] (s.start n) := by
  have heq : ∀ x ∈ (s.start n).executor, e = x := by
    intro x hx
    exact Option.some.inj (he.symm.trans hx)
  constructor
  · intro x hx
    obtain rfl := heq x hx
    cases Executor.eq_of_start? he
    exact .between_start rfl rfl
  · intro x hx
    show ([] ++ currentIds s.pending).Subperm x.running
    rw [hfree]
    exact List.nil_subperm

/-- What is tracked depends on the executor and on the jobs in question alone, and fewer jobs are
tracked as well as more. -/
theorem congr {s' : Shift τ} (h : Tracks e ids s) (hexecutor : s'.executor = s.executor)
    (hids : (ids' ++ currentIds s'.pending).Subperm (ids ++ currentIds s.pending)) :
    Tracks e ids' s' := by
  constructor
  · rw [hexecutor]
    exact h.loop
  · rw [hexecutor]
    intro x hx
    exact hids.trans (h.runs x hx)

/-- Runs that cannot end stay with the executor.  They hold their permits for ever, which is why
only some of what runs has to be pending. -/
theorem forget (h : Tracks e (ids' ++ ids) s) (t : τ) : Tracks e ids { s with state := t } := by
  refine h.congr rfl ?_
  rw [List.append_assoc]
  exact (List.sublist_append_right ids' _).subperm

theorem state (h : Tracks e ids s) (t : τ) : Tracks e ids { s with state := t } :=
  h.congr rfl (List.Perm.refl _).subperm

theorem claim (h : Tracks e ids s) (hmay : s.executor.any Executor.mayClaim = true) (id : JobId) :
    Tracks e (id :: ids) (s.onExecutor (·.claim id)) := by
  constructor
  · intro y hy
    obtain ⟨x, hx, rfl⟩ := mem_onExecutor.mp hy
    obtain ⟨_, hx', hmay⟩ := Option.any_eq_true _ _ |>.mp hmay
    cases Option.mem_unique hx hx'
    exact (h.loop x hx).between_claim hmay id
  · intro y hy
    obtain ⟨x, hx, rfl⟩ := mem_onExecutor.mp hy
    have hruns := (List.subperm_cons id).mpr (h.runs x hx)
    exact hruns.trans (List.perm_append_singleton id x.running).symm.subperm

/-- The executor lets go of a job whose run is over. -/
theorem release {id : JobId} {f : Executor → Executor} (h : Tracks e (id :: ids) s)
    (hloop : ∀ {x}, Loop.Reachable e (.between x) → id ∈ x.running →
      Loop.Reachable e (.between (f x)))
    (hrunning : ∀ x, (f x).running = x.running.erase id) : Tracks e ids (s.onExecutor f) := by
  constructor
  · intro y hy
    obtain ⟨x, hx, rfl⟩ := mem_onExecutor.mp hy
    exact hloop (h.loop x hx) ((h.runs x hx).subset List.mem_cons_self)
  · intro y hy
    obtain ⟨x, hx, rfl⟩ := mem_onExecutor.mp hy
    have hruns := (h.runs x hx).erase id
    rw [List.cons_append, List.erase_cons_head] at hruns
    rw [hrunning]
    exact hruns

/-- A run is over: its result is written, and the executor gives the permit back. -/
theorem conclude {r : PendingRun} (h : Tracks e (currentIds [r] ++ ids) s) (he : e.running = []) :
    Tracks e ids (s.conclude site r) := by
  unfold Shift.conclude
  split
  · rename_i o t _
    dsimp only
    split
    · rename_i hcurrent
      rw [currentIds, List.filter_cons_of_pos hcurrent] at h
      exact (h.state t).release (fun hx hid => hx.finish he hid o.job.status) fun _ => rfl
    · exact h.forget t
  · rename_i t _
    dsimp only
    split
    · rename_i hcurrent
      rw [currentIds, List.filter_cons_of_pos hcurrent] at h
      exact (h.state t).release (fun hx hid => hx.abort he hid) fun _ => rfl
    · exact h.forget t
  · exact h.forget s.state

/-- A claimed job is begun: its run is pending now, or it has ended at once. -/
theorem beginJob {j : Job} (h : Tracks e (j.id :: ids) s) (he : e.running = []) :
    Tracks e ids (s.beginJob site j) := by
  unfold Shift.beginJob
  dsimp only
  split
  · exact h.conclude he
  · rename_i t _
    exact (h.state t).conclude he
  · refine h.congr rfl ?_
    rw [currentIds_append, ← List.append_assoc]
    exact (List.perm_append_singleton j.id _).subperm

/-- As many jobs are claimed as there are permits and jobs that are ready.  The induction is on the
number of tries, and each claim puts one job in front of those in hand. -/
theorem claimAll (h : Tracks e ids s) (n : Nat) :
    Tracks e ((s.claimAll site n).1.map (·.id) ++ ids) (s.claimAll site n).2.2 := by
  induction n generalizing s ids with
  | zero => exact h
  | succ n ih =>
    unfold Shift.claimAll
    split
    · rename_i hmay
      split
      · rename_i j s' hr
        obtain ⟨t, rfl⟩ := exists_of_ask hr
        refine (ih ((h.state t).claim hmay j.id)).congr rfl ?_
        refine List.Perm.subperm (List.Perm.append_right _ ?_)
        exact List.perm_middle.symm
      · rename_i hr
        obtain ⟨t, rfl⟩ := exists_of_ask hr
        exact h.state t
      · exact h
    · exact h

theorem foldl_beginJob (he : e.running = []) (js : List Job) (h : Tracks e (js.map (·.id)) s) :
    Tracks e [] (js.foldl (fun s j => s.beginJob site j) s) := by
  induction js generalizing s with
  | nil => exact h
  | cons j js ih => exact ih (h.beginJob he)

/-- Claiming and beginning go on until nothing is ready, with one unit of fuel for each round. -/
theorem settle (h : Tracks e [] s) (he : e.running = []) (n : Nat) :
    Tracks e [] (s.settle site n) := by
  induction n generalizing s with
  | zero => exact h
  | succ n ih =>
    have hclaimed : Tracks e ((s.claimAll site (n + 1)).1.map (·.id) ++ [])
        (s.claimAll site (n + 1)).2.2 := h.claimAll (n + 1)
    rw [List.append_nil] at hclaimed
    have hbegun : Tracks e [] ((s.claimAll site (n + 1)).1.foldl (fun s j => s.beginJob site j)
        (s.claimAll site (n + 1)).2.2) := foldl_beginJob he _ hclaimed
    unfold Shift.settle
    dsimp only
    split
    · exact ih hbegun
    · exact hbegun

theorem foldl_conclude (he : e.running = []) (rs : List PendingRun)
    (h : Tracks e (currentIds rs) s) :
    Tracks e [] (rs.foldl (fun s r => s.conclude site r) s) := by
  induction rs generalizing s with
  | nil => exact h
  | cons r rs ih =>
    rw [currentIds_cons] at h
    exact ih (h.conclude he)

/-- All runs that are due by now are over, one after the other in the order of their ends. -/
theorem concludeDue (h : Tracks e [] s) (he : e.running = []) :
    Tracks e [] (s.concludeDue site) := by
  unfold Shift.concludeDue
  dsimp only
  refine foldl_conclude he _ (h.congr rfl ?_)
  rw [← currentIds_append, List.partition_eq_filter_filter]
  refine (currentIds_perm ?_).subperm
  exact ((List.mergeSort_perm _ _).append_right _).trans (List.filter_append_perm _ _)

theorem stop (h : Tracks e ids s) : Tracks e ids (s.onExecutor Executor.stop) := by
  constructor
  · intro y hy
    obtain ⟨x, hx, rfl⟩ := mem_onExecutor.mp hy
    exact (h.loop x hx).between_stop
  · intro y hy
    obtain ⟨x, hx, rfl⟩ := mem_onExecutor.mp hy
    exact h.runs x hx

end Tracks

/-- A shift that put an executor to work, and all that has gone on since: calls have changed the
state, jobs have been claimed and run, and the executor may have been told to stop.  The operations
of a server are made of these (`respond`, `receive`, `advance`). -/
inductive Worked (site : Site τ) (e : Executor) : Shift τ → Prop
  | start {s : Shift τ} {workers : Nat} (hfree : currentIds s.pending = [])
      (he : Executor.start? workers = some e) : Worked site e (s.start workers)
  | state {s : Shift τ} (h : Worked site e s) (t : τ) : Worked site e { s with state := t }
  | settle {s : Shift τ} (h : Worked site e s) (fuel : Nat) : Worked site e (s.settle site fuel)
  | concludeDue {s : Shift τ} (h : Worked site e s) : Worked site e (s.concludeDue site)
  | stop {s : Shift τ} (h : Worked site e s) : Worked site e (s.onExecutor Executor.stop)

namespace Worked

/-- Time passes in rounds, from the end of one run to the next. -/
theorem passUntil (h : Worked site e s) (target : Instant) (fuel : Nat) :
    Worked site e (s.passUntil site target fuel) := by
  induction fuel generalizing s with
  | zero => exact h
  | succ fuel ih =>
    unfold Shift.passUntil
    dsimp only
    split
    · exact h.settle settleFuel
    · exact ih ((h.settle settleFuel).state _).concludeDue

theorem pass (h : Worked site e s) (millis : Nat) : Worked site e (s.pass site millis) := by
  unfold Shift.pass
  split
  · exact h
  · exact h.passUntil _ _

theorem passToEnd (h : Worked site e s) : Worked site e (s.passToEnd site) := by
  refine List.foldlRecOn _ _ h fun s hs r _ => ?_
  split
  · exact hs
  · exact hs.passUntil _ _

theorem advance (h : Worked site e s) (t : Instant) : Worked site e (s.advance site t) := by
  unfold Shift.advance
  dsimp only
  split
  · exact ((h.state _).concludeDue).settle _
  · exact h.concludeDue.settle _

theorem respond {secret : String} {q : HttpRequest} {r : HttpResponse × Shift τ}
    (h : Worked site e s) (hr : s.respond site secret q = some r) :
    Worked site e r.2 := by
  obtain ⟨a, -, rfl⟩ := Option.map_eq_some_iff.mp hr
  exact h.state a.2

/-- A request that arrives while the server works may be answered at once, or when time has
passed. -/
theorem receive {secret : String} {a : Arrival} {r : HttpResponse × Shift τ}
    (h : Worked site e s) (hr : s.receive site secret a = some r) : Worked site e r.2 := by
  obtain ⟨r', hr', rfl⟩ := Option.map_eq_some_iff.mp hr
  refine Worked.settle ?_ settleFuel
  split at hr'
  · exact (h.advance _).respond hr'
  · exact h.respond hr'

/-- The executor that is started has not run anything. -/
theorem unused (h : Worked site e s) : e.running = [] := by
  induction h with
  | start _ he => rw [Executor.eq_of_start? he]
  | state _ _ ih | settle _ _ ih | concludeDue _ ih | stop _ ih => exact ih

/-- Whatever goes on, the executor is a loop that can be reached and runs what is pending: every
step keeps it, by the lemma on its operation. -/
theorem tracks (h : Worked site e s) : Tracks e [] s := by
  have hunused := h.unused
  induction h with
  | start hfree he => exact .start hfree he
  | state _ t ih => exact ih.state t
  | settle _ fuel ih => exact ih.settle hunused fuel
  | concludeDue _ ih => exact ih.concludeDue hunused
  | stop _ ih => exact ih.stop

/-- Whatever goes on, no more jobs run than there are workers, and all runs that are pending are
among them; and when the executor has ended, none is pending if there are fewer than `2 ^ 32`
workers. -/
theorem bounded (h : Worked site e s) (hx : x ∈ s.executor) :
    x.running.length ≤ e.workers ∧ (currentIds s.pending).Subperm x.running ∧
      (x.hasEnded = true → e.workers < 2 ^ 32 → currentIds s.pending = []) := by
  have hloop := h.tracks.loop x hx
  have hruns := h.tracks.runs x hx
  refine ⟨(hloop.sound h.unused).length_running_le, hruns, ?_⟩
  intro hended hfew
  have hdone := (hloop.between_last hended).sound h.unused
  have hnil : x.running = [] := hdone.running_eq_nil rfl hfew
  rw [hnil] at hruns
  exact List.subperm_nil.mp hruns

end Worked

end Shift

/-- A server is at work from its start. -/
theorem Settings.worked_server {τ : Type} {site : Site τ} {s : Settings} {e : Executor}
    (he : Executor.start? s.workers = some e) (t : τ) : Shift.Worked site e (s.server t) :=
  .start rfl he

end Marketplace
