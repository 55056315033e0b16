import Mathlib.Algebra.Group.Nat.Defs
import Marketplace.Proofs.Json.Yields
import Marketplace.Server.Settings
set_option autoImplicit false

/-!
# The end of the executor

The executor is a loop that takes a permit, claims a job with it, and leaves the permit to the run
of the job; it is told to stop at any time, and runs end whenever they do.  There are never more
runs than workers.  At its end the loop takes as many permits as it has workers, but counts them in
32 bits: only with fewer than `2 ^ 32` workers does that make it wait for all runs
(`Executor.drains_iff_workers_lt`).
-/

namespace Marketplace

namespace Executor

/-- Where the loop of an executor stands. -/
inductive Phase
  /-- It looks whether it has been told to stop. -/
  | looking
  /-- It waits for a permit. -/
  | waiting
  /-- It has a permit and asks for a job. -/
  | claiming
  /-- There was no job, and it rests. -/
  | resting
  /-- It takes the permits back. -/
  | ending
  | ended
  deriving DecidableEq, Repr

/-- The loop of an executor. -/
structure Loop where
  phase : Phase
  executor : Executor
  /-- The permits that nobody holds. -/
  permits : Nat
  /-- The runs that are over and still hold their permits. -/
  leaving : Nat

namespace Loop

/-- One thing that happens in the loop or around it. -/
inductive Step : Loop → Loop → Prop
  /-- The loop is told to stop. -/
  | stop (l : Loop) : Step l { l with executor := l.executor.stop }
  | look {l : Loop} (hphase : l.phase = .looking) (hgoes : l.executor.stopping = false) :
    Step l { l with phase := .waiting }
  | leave {l : Loop} (hphase : l.phase = .looking) (hstops : l.executor.stopping = true) :
    Step l { l with phase := .ending }
  | acquire {l : Loop} {n : Nat} (hphase : l.phase = .waiting) (hpermits : l.permits = n + 1) :
    Step l { l with phase := .claiming, permits := n }
  /-- Word that it has to stop ends the wait for a permit. -/
  | turn {l : Loop} (hphase : l.phase = .waiting) (hstops : l.executor.stopping = true) :
    Step l { l with phase := .looking }
  | claim {l : Loop} (hphase : l.phase = .claiming) (id : JobId) :
    Step l { l with phase := .looking, executor := l.executor.claim id }
  /-- There is no job, or the job store does not answer. -/
  | nothing {l : Loop} (hphase : l.phase = .claiming) :
    Step l { l with phase := .resting, permits := l.permits + 1 }
  | rise {l : Loop} (hphase : l.phase = .resting) : Step l { l with phase := .looking }
  | finish {l : Loop} {id : JobId} (hid : id ∈ l.executor.running) (status : JobStatus) :
    Step l { l with executor := l.executor.finish id status, leaving := l.leaving + 1 }
  | abort {l : Loop} {id : JobId} (hid : id ∈ l.executor.running) :
    Step l { l with executor := l.executor.abort id, leaving := l.leaving + 1 }
  | release {l : Loop} {n : Nat} (hleaving : l.leaving = n + 1) :
    Step l { l with permits := l.permits + 1, leaving := n }
  | last {l : Loop} (hphase : l.phase = .ending)
      (hpermits : l.executor.permitsToEnd ≤ l.permits) : Step l { l with phase := .ended }

/-- What becomes of the loop of an executor. -/
inductive Reachable (e : Executor) : Loop → Prop
  | start : Reachable e ⟨.looking, e, e.workers, 0⟩
  | step {l l' : Loop} (h : Reachable e l) (hst : l.Step l') : Reachable e l'

/-! ## Permits -/

/-- The permits that the loop holds itself. -/
def held (l : Loop) : Nat := if l.phase = .claiming then 1 else 0

/-- No permit is lost, and at the end enough of them are there. -/
structure Sound (total : Nat) (l : Loop) : Prop where
  workers : l.executor.workers = total
  permits : l.permits + l.executor.running.length + l.leaving + l.held = total
  ended : l.phase = .ended → l.executor.permitsToEnd ≤ l.permits

variable {e x y : Executor} {l l' : Loop} {total : Nat} {id : JobId} {p : Phase}

/-- A step from one place to another leaves the permits where they are, unless it takes one or gives
one back. -/
theorem Sound.move {n : Nat} (h : l.Sound total) (hp : p ≠ .ended)
    (hn : n + held { l with phase := p } = l.permits + l.held) :
    Sound total { l with phase := p, permits := n } := by
  have hpermits := h.permits
  refine ⟨h.workers, ?_, fun hended => absurd hended hp⟩
  have hheld : held { l with phase := p, permits := n } = held { l with phase := p } := rfl
  rw [hheld]
  show n + l.executor.running.length + l.leaving + _ = total
  omega

/-- Every step keeps it so. -/
theorem Sound.step (h : l.Sound total) (hst : l.Step l') : l'.Sound total := by
  cases hst with
  | stop => exact ⟨h.workers, h.permits, h.ended⟩
  | look hphase | leave hphase | turn hphase | rise hphase =>
    exact h.move nofun (by simp [held, hphase])
  | acquire hphase hone => exact h.move nofun (by simp [held, hphase, hone])
  | nothing hphase => exact h.move nofun (by simp [held, hphase])
  | claim hphase id =>
    have hpermits := h.permits
    refine ⟨h.workers, ?_, nofun⟩
    simp only [held, hphase, if_true] at hpermits
    simp only [held, Executor.claim, List.length_append, List.length_singleton, reduceCtorEq,
      if_false]
    omega
  | @finish id hid _ | @abort id hid =>
    have hpermits := h.permits
    have hlength := List.length_erase_of_mem hid
    have hpos := List.length_pos_of_mem hid
    refine ⟨h.workers, ?_, h.ended⟩
    show l.permits + (l.executor.running.erase id).length + (l.leaving + 1) + l.held = total
    omega
  | @release n hleaving =>
    have hpermits := h.permits
    refine ⟨h.workers, ?_, fun hended => Nat.le_succ_of_le (h.ended hended)⟩
    show l.permits + 1 + l.executor.running.length + n + l.held = total
    omega
  | last hphase hall =>
    have hpermits := h.permits
    simp only [held, hphase, reduceCtorEq, if_false] at hpermits
    exact ⟨h.workers, hpermits, fun _ => hall⟩

theorem Reachable.sound (h : Reachable e l) (he : e.running = []) : l.Sound e.workers := by
  induction h with
  | start =>
    refine ⟨rfl, ?_, nofun⟩
    show e.workers + e.running.length + 0 + 0 = e.workers
    rw [he]
    rfl
  | step _ hst ih => exact ih.step hst

/-- There are never more runs than workers. -/
theorem Sound.length_running_le (h : l.Sound total) : l.executor.running.length ≤ total := by
  have hpermits := h.permits
  omega

/-- With all its permits the loop has waited for all runs. -/
theorem Sound.running_eq_nil (h : l.Sound total) (hended : l.phase = .ended)
    (hlimit : total < 2 ^ 32) : l.executor.running = [] := by
  have hpermits := h.permits
  have hall := h.ended hended
  have hmod : l.executor.permitsToEnd = total := by
    rw [permitsToEnd, h.workers]
    exact Nat.mod_eq_of_lt hlimit
  rw [hmod] at hall
  exact List.eq_nil_of_length_eq_zero (by omega)

/-! ## The operations are made of steps -/

/-- The loop when all runs that are over have given their permits back. -/
def settled (p : Phase) (x : Executor) : Loop := ⟨p, x, x.free, 0⟩

namespace Reachable

theorem initial (he : e.running = []) : Reachable e (settled .looking e) := by
  have hfree : e.free = e.workers := by rw [free, he, List.length_nil, Nat.sub_zero]
  rw [settled, hfree]
  exact .start

/-- The executor claims a job if it may. -/
theorem claim (h : Reachable e (settled .looking x)) (hmay : x.mayClaim = true) (id : JobId) :
    Reachable e (settled .looking (x.claim id)) := by
  rw [mayClaim, Bool.and_eq_true, Bool.not_eq_true', decide_eq_true_eq] at hmay
  obtain ⟨hgoes, hfew⟩ := hmay
  have hfree : x.free = (x.claim id).free + 1 := by
    simp only [free, Executor.claim, List.length_append, List.length_singleton]
    omega
  exact ((h.step (.look rfl hgoes)).step (.acquire rfl hfree)).step (.claim rfl id)

/-- The run of a job is over and gives its permit back. -/
theorem handBack (h : Reachable e (settled p x)) (he : e.running = []) (hid : id ∈ x.running)
    (hst : Step (settled p x) { settled p x with executor := y, leaving := 1 })
    (hworkers : y.workers = x.workers) (hrunning : y.running = x.running.erase id) :
    Reachable e (settled p y) := by
  have hfew : x.running.length ≤ x.workers := by
    have hsound := h.sound he
    rw [← hsound.workers] at hsound
    exact hsound.length_running_le
  have hfree : x.free + 1 = y.free := by
    have hlength := List.length_erase_of_mem hid
    have hpos := List.length_pos_of_mem hid
    rw [free, free, hworkers, hrunning, hlength]
    omega
  have hreleased := (h.step hst).step (.release rfl)
  rw [settled, ← hfree]
  exact hreleased

theorem finish (h : Reachable e (settled p x)) (he : e.running = []) (hid : id ∈ x.running)
    (status : JobStatus) : Reachable e (settled p (x.finish id status)) :=
  h.handBack he hid (.finish hid status) rfl rfl

theorem abort (h : Reachable e (settled p x)) (he : e.running = []) (hid : id ∈ x.running) :
    Reachable e (settled p (x.abort id)) :=
  h.handBack he hid (.abort hid) rfl rfl

theorem stop (h : Reachable e (settled .looking x)) : Reachable e (settled .ending x.stop) :=
  (h.step (.stop _)).step (.leave rfl rfl)

/-- The loop ends if the executor has ended. -/
theorem last (h : Reachable e (settled .ending x)) (hended : x.hasEnded = true) :
    Reachable e (settled .ended x) := by
  rw [hasEnded, Bool.and_eq_true, decide_eq_true_eq] at hended
  exact h.step (.last rfl hended.2)

end Reachable

/-- With `2 ^ 32` workers or more the loop may end while a job runs. -/
theorem exists_ended_running (he : e.running = []) (hgoes : e.stopping = false)
    (hmany : 2 ^ 32 ≤ e.workers) (id : JobId) :
    ∃ l, Reachable e l ∧ l.phase = .ended ∧ l.executor.running = [id] := by
  have hmay : e.mayClaim = true := by
    rw [mayClaim, he, hgoes]
    simp only [Bool.not_false, List.length_nil, Bool.true_and, decide_eq_true_eq]
    omega
  have hrunning : (e.claim id).running = [id] := by rw [Executor.claim, he, List.nil_append]
  have hended : (e.claim id).stop.hasEnded = true := by
    have hfree : (e.claim id).stop.free = e.workers - 1 := by
      show e.workers - (e.claim id).running.length = e.workers - 1
      rw [hrunning, List.length_singleton]
    have hfew : e.workers % 2 ^ 32 < 2 ^ 32 := Nat.mod_lt _ (by decide)
    rw [hasEnded, hfree, Bool.and_eq_true, decide_eq_true_eq]
    refine ⟨rfl, ?_⟩
    show e.workers % 2 ^ 32 ≤ e.workers - 1
    omega
  exact ⟨_, (((Reachable.initial he).claim hmay id).stop).last hended, rfl, hrunning⟩

end Loop

/-! ## The executor of the server -/

theorem start?_isSome_iff {workers : Nat} (hworkers : 1 ≤ workers) :
    (start? workers).isSome = true ↔ workers < 2 ^ 61 := by
  have hmax : max workers 1 = workers := Nat.max_eq_left hworkers
  have hlimit : maxPermits = 2 ^ 61 - 1 := rfl
  rw [start?, hmax, hlimit]
  split
  · exact iff_of_true rfl (by omega)
  · exact iff_of_false nofun (by omega)

theorem eq_of_start? {workers : Nat} {e : Executor} (h : start? workers = some e) :
    e = ⟨max workers 1, [], 0, false, .zero⟩ := by
  unfold start? at h
  split at h
  · cases h
    rfl
  · cases h

end Executor

/-- Whatever is asked for, there is one worker at least. -/
theorem Settings.one_le_workers_of_read {lookup : String → Option String} {s : Settings}
    (h : Settings.read lookup = .ok s) : 1 ≤ s.workers := by
  unfold Settings.read at h
  iterate 7 obtain ⟨_, -, h⟩ := Except.bind_eq_ok_iff.mp h
  cases h
  exact Nat.le_max_right _ _

namespace Executor

/-- Whatever settings the server has been given: its executor is there if there are fewer than `2 ^
61` workers, no more jobs run than there are workers, and the executor always waits for all of them
exactly if there are fewer than `2 ^ 32` workers. -/
theorem drains_iff_workers_lt {lookup : String → Option String} {s : Settings}
    (h : Settings.read lookup = .ok s) :
    1 ≤ s.workers ∧ ((start? s.workers).isSome = true ↔ s.workers < 2 ^ 61) ∧
      ∀ e, start? s.workers = some e →
        (∀ l, Loop.Reachable e l → l.executor.running.length ≤ s.workers) ∧
        ((∀ l, Loop.Reachable e l → l.phase = .ended → l.executor.running = []) ↔
          s.workers < 2 ^ 32) := by
  have hworkers := Settings.one_le_workers_of_read h
  refine ⟨hworkers, start?_isSome_iff hworkers, ?_⟩
  intro e he
  have hnew := eq_of_start? he
  rw [Nat.max_eq_left hworkers] at hnew
  subst hnew
  refine ⟨?_, ?_, ?_⟩
  · intro l hl
    exact (hl.sound rfl).length_running_le
  · intro hdrains
    refine Nat.lt_of_not_le fun hmany => ?_
    obtain ⟨l, hl, hended, hrunning⟩ :=
      Loop.exists_ended_running (e := ⟨s.workers, [], 0, false, .zero⟩) rfl rfl hmany (.ofNat 1)
    rw [hdrains l hl hended] at hrunning
    cases hrunning
  · intro hfew l hl hended
    exact (hl.sound rfl).running_eq_nil hended hfew

/-- The settings of a server whose number of workers is given by the text, or not at all. -/
def withWorkers (text : Option String) : Except SettingsFault Settings :=
  Settings.read fun name => if name = "JOB_WORKERS" then text else none

theorem exists_withWorkers (text : Option String) (workers : Nat)
    (h : (withWorkers text).toOption.any (fun s => s.workers == workers) = true) :
    ∃ s, withWorkers text = .ok s ∧ s.workers = workers := by
  cases hread : withWorkers text with
  | error f =>
    rw [hread] at h
    cases h
  | ok s =>
    rw [hread] at h
    exact ⟨s, rfl, beq_iff_eq.mp h⟩

/-- Four workers are usual: they start, and the executor has waited for the run of its one job. -/
theorem drains_with_usual_workers : ∃ (s : Settings) (e : Executor) (l : Loop),
    withWorkers none = .ok s ∧ s.workers = 4 ∧ (start? s.workers).isSome = true ∧
      start? s.workers = some e ∧ Loop.Reachable e l ∧ l.executor.running.length ≤ s.workers ∧
      l.phase = .ended ∧ l.executor.stats.processed = 1 ∧ l.executor.running = [] := by
  obtain ⟨s, hread, hfour⟩ := exists_withWorkers none 4 (by decide +kernel)
  obtain ⟨-, hstarts, hloop⟩ := drains_iff_workers_lt hread
  have hsome : (start? s.workers).isSome = true := hstarts.mpr (by omega)
  obtain ⟨e, he⟩ := Option.isSome_iff_exists.mp hsome
  obtain ⟨hbound, hdrains⟩ := hloop e he
  have hnew := eq_of_start? he
  rw [hfour] at hnew
  subst hnew
  have hclaimed := (Loop.Reachable.start (e := ⟨4, [], 0, false, .zero⟩)).claim rfl (.ofNat 1)
  have hfinished := hclaimed.finish rfl (List.mem_singleton.mpr rfl) .succeeded
  have hended := hfinished.stop.last rfl
  exact ⟨s, _, _, hread, hfour, hsome, he, hended, hbound _ hended, rfl, rfl,
    hdrains.mpr (by omega) _ hended rfl⟩

/-- With `2 ^ 32` workers the executor may end while a job runs, and with `2 ^ 61` there is none. -/
theorem exists_not_drained :
    (∃ (s : Settings) (e : Executor) (l : Loop), withWorkers (some "4294967296") = .ok s ∧
      start? s.workers = some e ∧ Loop.Reachable e l ∧ l.phase = .ended ∧
      l.executor.running = [.ofNat 1]) ∧
    ∃ s : Settings, withWorkers (some "2305843009213693952") = .ok s ∧ start? s.workers = none := by
  constructor
  · obtain ⟨s, hread, hmany⟩ :=
      exists_withWorkers (some "4294967296") 4294967296 (by decide +kernel)
    have hstart : start? s.workers = some ⟨4294967296, [], 0, false, .zero⟩ := by
      rw [hmany]
      rfl
    obtain ⟨l, hl, hended, hrunning⟩ :=
      Loop.exists_ended_running (e := ⟨4294967296, [], 0, false, .zero⟩) rfl rfl (by decide)
        (.ofNat 1)
    exact ⟨s, _, l, hread, hstart, hl, hended, hrunning⟩
  · obtain ⟨s, hread, hmany⟩ := exists_withWorkers (some "2305843009213693952")
      2305843009213693952 (by decide +kernel)
    refine ⟨s, hread, ?_⟩
    rw [hmany]
    rfl

end Executor

end Marketplace
