import Marketplace.Proofs.Job.Staff
import Marketplace.Proofs.Job.Writes
set_option autoImplicit false

/-!
# The custody of claimed jobs

Among any number of workers and clients, whatever they do and in whatever order, a claimed job has
one holder until it is handed back, and nobody else changes what is stored of it
(`Pool.Past.custody`).

The proof keeps two books.  One is what the holders hold, read off the history; the other is what
has last been written under each identifier.  Both are functions of the past alone, and the
invariant says that they agree with the store and with each other (`Held`).
-/

namespace Marketplace

/-! ## What has been written -/

/-- The job that a deed writes to the store. -/
def Deed.written? : Deed → Option Job
  | .call (.job c) r => c.written? r
  | _ => none

/-- What has been written last under an identifier. -/
def lastWritten (log : List Event) (id : JobId) : Option Job :=
  log.foldl (fun old e => JobStore.overlay e.deed.written? id old) none

/-- An event adds what it writes to what has been written. -/
theorem lastWritten_snoc (log : List Event) (e : Event) (id : JobId) :
    lastWritten (log ++ [e]) id = JobStore.overlay e.deed.written? id (lastWritten log id) :=
  List.foldl_append

/-! ## One step -/

/-- A job keeps its identifier when a run of it ends. -/
theorem Job.id_of_finish {j k : Job} {started ended : Instant} {result : JobResult}
    (h : j.finish started ended result = some k) : k.id = j.id := by
  cases result with
  | success output => cases h; rfl
  | fatal reason => cases h; rfl
  | failure error =>
    simp only [finish, fail] at h
    split at h
    · obtain ⟨t, -, rfl⟩ := Option.map_eq_some_iff.mp h
      rfl
    · cases h
      rfl

/-- A call writes to the job store what its answer tells of. -/
theorem World.writes_of_act {w w' : World} {c : Call} {r : c.Reply} {m : Option Remainder}
    (hact : w.act c = some (r, w', m)) (hw : w.jobs.Distinct) :
    w.jobs.Writes (Deed.call c r).written? w'.jobs := by
  by_cases hjob : ∃ c', c = .job c'
  · obtain ⟨c', rfl⟩ := hjob
    cases hact
    exact JobStore.step_writes hw w.clock c'
  · have hsame := (frame_of_act hact).jobs fun c' hc => hjob ⟨c', hc⟩
    have hnone : (Deed.call c r).written? = none := by
      cases c with
      | job c' => exact absurd ⟨c', rfl⟩ hjob
      | _ => rfl
    rw [hsame, hnone]
    exact .same hw

/-- So does every deed. -/
theorem Activity.Does.writes {w w' : World} {a a' : Activity} {d : Deed} (h : a.Does w d w' a')
    (hw : w.jobs.Distinct) : w.jobs.Writes d.written? w'.jobs := by
  cases h with
  | call _ _ _ hact => exact World.writes_of_act hact hw
  | @finish m _ => cases m <;> exact .same hw
  | drop _ => exact .same hw

/-- Whatever programs run, no two jobs share an identifier. -/
theorem Pool.Reachable.distinct_jobs {admitted : Program Unit → Prop} {P : Pool}
    (h : P.Reachable admitted) : P.world.jobs.Distinct := by
  induction h with
  | start clock retention => exact List.nodup_nil
  | step _ hst ih =>
    cases hst with
    | start _ => exact ih
    | environment clock files => exact ih
    | move as bs ha =>
      obtain ⟨d, hd⟩ := Activity.step_iff_exists_does.mp ha
      exact (hd.writes ih).distinct

namespace Pool

variable {log : List Event} {P : Pool} {i : Nat} {j k : Job} {a a' : Activity} {d : Deed}
  {w' : World}

/-- What is always so: workers mind the jobs that they hold, these are stored and run, and what is
stored is what has been written last. -/
structure Held (log : List Event) (P : Pool) : Prop where
  distinct : P.world.jobs.Distinct
  minds : ∀ (i : Nat) (a : Activity), P.activities[i]? = some a →
    a.program.Minds (heldBy log i)
  present : ∀ i, P.activities.length ≤ i → heldBy log i = none
  stored : ∀ i j, heldBy log i = some j → P.world.jobs.find? j.id = some j ∧ j.status = .running
  sole : ∀ i i' j j', heldBy log i = some j → heldBy log i' = some j' → j.id = j'.id → i = i'
  written : ∀ id, P.world.jobs.find? id = lastWritten log id ∨
    (P.world.jobs.find? id = none ∧
      ∃ j, lastWritten log id = some j ∧ j.status.isTerminal = true)

namespace Held

/-- Whoever hands a job back holds it. -/
theorem report {r : Call.Reply (.job (.update k))} (h : Held log P)
    (ha : P.activities[i]? = some a) (hd : a.Does P.world (.call (.job (.update k)) r) w' a') :
    ∃ j started ended result, heldBy log i = some j ∧ j.finish started ended result = some k := by
  cases hd with
  | call hprogram =>
    have hminds := h.minds i a ha
    rw [hprogram] at hminds
    exact hminds.1

/-- Nobody but its holder writes a job of the identifier of a held job. -/
theorem not_written {i' : Nat} (h : Held log P) (hj : heldBy log i = some j)
    (ha : P.activities[i']? = some a) (hd : a.Does P.world d w' a')
    (hother : i' = i → ¬d.IsReport) (hk : d.written? = some k) : k.id ≠ j.id := by
  intro hid
  obtain ⟨hfind, hrunning⟩ := h.stored i j hj
  have hd' := hd
  cases hd with
  | @call c next r _ m _ _ _ hact =>
    cases c with
    | job c =>
      cases hact
      rw [← hid] at hfind
      have hupdate : c = .update k :=
        JobStore.eq_update_of_written h.distinct hk hfind hrunning
      subst hupdate
      obtain ⟨l, started, ended, result, hl, hfinish⟩ := h.report ha hd'
      have hsame := h.sole i' i l j hl hj ((Job.id_of_finish hfinish).symm.trans hid)
      exact hother hsame ⟨k, _, rfl⟩
    | _ => cases hk
  | finish _ => cases hk
  | drop _ => cases hk

/-- So it stays as it is stored. -/
theorem alone {i' : Nat} (h : Held log P) (hj : heldBy log i = some j)
    (ha : P.activities[i']? = some a) (hd : a.Does P.world d w' a')
    (hother : i' = i → ¬d.IsReport) : w'.jobs.find? j.id = some j := by
  obtain ⟨hfind, hrunning⟩ := h.stored i j hj
  exact (hd.writes h.distinct).find?_of_running hfind hrunning fun k hk =>
    h.not_written hj ha hd hother hk

/-- What is claimed is stored, runs, and is held by nobody yet. -/
theorem claimed (h : Held log P)
    (hd : a.Does P.world (.call (.job .claimNext) (.ok (some k))) w' a') :
    w'.jobs.find? k.id = some k ∧ k.status = .running ∧
      ∀ i j, heldBy log i = some j → j.id ≠ k.id := by
  have hwrites := hd.writes h.distinct
  have hclaim : (P.world.jobs.claimNext P.world.clock).1 = some k := by
    cases hd with
    | call _ _ _ hact =>
      simp only [World.act, World.handle, JobCall.step, Option.map_some, Option.some.injEq,
        Prod.mk.injEq, Except.ok.injEq] at hact
      exact hact.1
  obtain ⟨l, hl, hdue, rfl⟩ := (JobStore.writes_claimNext h.distinct _).2 k hclaim
  refine ⟨hwrites.find?_of_written rfl rfl, rfl, fun i j hj hid => ?_⟩
  obtain ⟨hfind, hrunning⟩ := h.stored i j hj
  rw [hid] at hfind
  have hsame : l = j := Option.some.inj (hl.symm.trans hfind)
  subst hsame
  have hclaimable := Job.isClaimable_of_isDue hdue
  rw [hrunning] at hclaimable
  cases hclaimable

/-- Whoever holds a job after a deed has just claimed it, or has held it before. -/
theorem cases_snoc {i' : Nat} (hj : heldBy (log ++ [⟨i, d⟩]) i' = some j) :
    (i = i' ∧ d = .call (.job .claimNext) (.ok (some j))) ∨
      (heldBy log i' = some j ∧ (i = i' → ¬d.IsReport)) := by
  rw [heldBy_snoc] at hj
  split at hj
  · rename_i hi
    rcases Deed.held_eq_some hj with hclaim | ⟨hold, hreport⟩
    · exact Or.inl ⟨hi, hclaim⟩
    · exact Or.inr ⟨hold, fun _ => hreport⟩
  · rename_i hi
    exact Or.inr ⟨hj, fun heq => absurd heq hi⟩

/-- The store shows what has been written last, or has pruned the job, which then was over. -/
theorem written_snoc (h : Held log P) (hd : a.Does P.world d w' a') (id : JobId) :
    w'.jobs.find? id = lastWritten (log ++ [⟨i, d⟩]) id ∨
      (w'.jobs.find? id = none ∧
        ∃ j, lastWritten (log ++ [⟨i, d⟩]) id = some j ∧ j.status.isTerminal = true) := by
  rw [lastWritten_snoc]
  have hwrites := (hd.writes h.distinct).find? id
  rcases h.written id with hsame | ⟨hnone, l, hl, hterminal⟩
  · rwa [hsame] at hwrites
  · rcases JobStore.overlay_cases d.written? id with ⟨k, hk⟩ | hold
    · rw [hk] at hwrites ⊢
      exact hwrites
    · rw [hold, hnone] at hwrites
      rw [hold, hl]
      rcases hwrites with hgone | ⟨hgone, -⟩
      · exact Or.inr ⟨hgone, l, rfl, hterminal⟩
      · exact Or.inr ⟨hgone, l, rfl, hterminal⟩

/-- Whatever anybody does, it remains so. -/
theorem deed (h : Held log P) (ha : P.activities[i]? = some a) (hd : a.Does P.world d w' a') :
    Held (log ++ [⟨i, d⟩]) (P.moved i w' a') := by
  refine ⟨(hd.writes h.distinct).distinct, fun i' x hx => ?_, fun i' hi' => ?_,
    fun i' j hj => ?_, fun i₁ i₂ j₁ j₂ hj₁ hj₂ hid => ?_, h.written_snoc hd⟩
  · by_cases hi : i' = i
    · subst hi
      rw [getElem?_moved_self ha] at hx
      cases hx
      rw [heldBy_snoc, if_pos rfl]
      have hminds := h.minds i' a ha
      cases hd with
      | call hprogram =>
        rw [hprogram] at hminds
        exact hminds.2 _
      | @finish m _ => cases m <;> exact hminds
      | drop _ => trivial
    · rw [getElem?_moved_ne hi] at hx
      rw [heldBy_snoc, if_neg (Ne.symm hi)]
      exact h.minds i' x hx
  · have hlength : P.activities.length ≤ i' := by simpa [moved] using hi'
    obtain ⟨hlt, -⟩ := List.getElem?_eq_some_iff.mp ha
    have hne : i ≠ i' := by omega
    rw [heldBy_snoc, if_neg hne]
    exact h.present i' hlength
  · rcases cases_snoc hj with ⟨rfl, rfl⟩ | ⟨hold, hreport⟩
    · obtain ⟨hfind, hrunning, -⟩ := h.claimed hd
      exact ⟨hfind, hrunning⟩
    · exact ⟨h.alone hold ha hd hreport, (h.stored i' j hold).2⟩
  · rcases cases_snoc hj₁ with ⟨rfl, rfl⟩ | ⟨hold₁, -⟩
    · rcases cases_snoc hj₂ with ⟨rfl, -⟩ | ⟨hold₂, -⟩
      · rfl
      · exact absurd hid.symm ((h.claimed hd).2.2 i₂ j₂ hold₂)
    · rcases cases_snoc hj₂ with ⟨rfl, rfl⟩ | ⟨hold₂, -⟩
      · exact absurd hid ((h.claimed hd).2.2 i₁ j₁ hold₁)
      · exact h.sole i₁ i₂ j₁ j₂ hold₁ hold₂ hid

end Held

/-- It holds of every history, by induction on the deeds. -/
theorem Past.held (h : P.Past Program.Staff log) : Held log P := by
  induction h with
  | start clock retention =>
    refine ⟨List.nodup_nil, fun i a ha => ?_, fun _ _ => rfl, fun i j hj => ?_,
      fun i _ j _ hj => ?_, fun id => Or.inl rfl⟩
    · cases ha
    · cases hj
    · cases hj
  | @begin log P p _ hp ih =>
    refine ⟨ih.distinct, fun i a ha => ?_, fun i hi => ?_, ih.stored, ih.sole, ih.written⟩
    · rcases getElem?_begun.mp ha with hold | ⟨rfl, rfl⟩
      · exact ih.minds i a hold
      · rw [ih.present _ (Nat.le_refl _)]
        exact hp.minds
    · rw [List.length_append, List.length_singleton] at hi
      exact ih.present i (by omega)
  | environment _ clock files ih =>
    exact ⟨ih.distinct, ih.minds, ih.present, ih.stored, ih.sole, ih.written⟩
  | deed _ ha hd ih => exact ih.deed ha hd

/-- The custody of claimed jobs. -/
structure Custody (log : List Event) (P : Pool) : Prop where
  /-- A held job is stored as its holder has it, and it runs. -/
  stored : ∀ i j, heldBy log i = some j → P.world.jobs.find? j.id = some j ∧ j.status = .running
  /-- It has one holder. -/
  sole : ∀ i i' j j', heldBy log i = some j → heldBy log i' = some j' → j.id = j'.id → i = i'
  /-- Whatever happens, unless it is handed back, it stays as it is stored, and nobody submits,
  claims, puts back or updates a job of its identifier. -/
  alone : ∀ i j, heldBy log i = some j →
    ∀ (i' : Nat) (a a' : Activity) d w', P.activities[i']? = some a → a.Does P.world d w' a' →
      (i' = i → ¬d.IsReport) →
        w'.jobs.find? j.id = some j ∧ ∀ k, d.written? = some k → k.id ≠ j.id
  /-- Who hands a job back holds it.  The job is still stored as it was claimed, and its place is
  taken by the job with the result. -/
  reported : ∀ (i : Nat) (a a' : Activity) k r w', P.activities[i]? = some a →
    a.Does P.world (.call (.job (.update k)) r) w' a' → r = .ok () ∧
      ∃ j started ended result, heldBy log i = some j ∧
        P.world.jobs.find? k.id = some j ∧ j.finish started ended result = some k
  /-- Of every identifier that job is stored which has been written last, and it goes only when it
  has come to its end. -/
  written : ∀ id, P.world.jobs.find? id = lastWritten log id ∨
    (P.world.jobs.find? id = none ∧
      ∃ j, lastWritten log id = some j ∧ j.status.isTerminal = true)

/-- Whatever workers and clients do, and in whatever order, a claimed job has one holder until it is
handed back. -/
theorem Past.custody (h : P.Past Program.Staff log) : P.Custody log := by
  have hheld := h.held
  refine ⟨hheld.stored, hheld.sole, fun i j hj i' a a' d w' ha hd hother => ⟨?_, ?_⟩,
    fun i a a' k r w' ha hd => ?_, hheld.written⟩
  · exact hheld.alone hj ha hd hother
  · exact fun k hk => hheld.not_written hj ha hd hother hk
  · obtain ⟨j, started, ended, result, hj, hfinish⟩ := hheld.report ha hd
    have hfind := (hheld.stored i j hj).1
    rw [← Job.id_of_finish hfinish] at hfind
    refine ⟨?_, j, started, ended, result, hj, hfind, hfinish⟩
    obtain ⟨t, ht⟩ := JobStore.exists_update hfind
    cases hd with
    | call _ _ _ hact =>
      simp only [World.act, World.handle, JobCall.step, ht, Option.map_some, Option.some.injEq,
        Prod.mk.injEq] at hact
      exact hact.1.symm

/-- A client that submits a job, and two workers of whose work nothing is asked. -/
def jobTrade : List (Program Unit) :=
  [(JobService.create ⟨1⟩ (.notifyOrderPlaced ⟨1⟩ ⟨1⟩)).bind fun j =>
      (JobService.submit j).run.bind fun _ => .done (),
    (Work.turn idle).bind fun _ => .done (), (Work.turn idle).bind fun _ => .done ()]
where
  idle (_ : JobKind) : Option (Job → Program JobResult) := some fun _ => .done (.success none)

theorem staff_jobTrade : ∀ p ∈ jobTrade, p.Staff := by
  have hworker : Program.Staff ((Work.turn jobTrade.idle).bind fun _ => .done ()) := by
    refine .worker fun kind work hwork j => ?_
    cases hwork
    trivial
  have hclient : Program.IsClient
      ((JobService.create ⟨1⟩ (.notifyOrderPlaced ⟨1⟩ ⟨1⟩)).bind fun j =>
        (JobService.submit j).run.bind fun _ => .done ()) :=
    ⟨rfl, fun now => ⟨rfl, fun id => (JobService.isClient_submit _).bind fun _ => trivial⟩⟩
  simp only [jobTrade, List.mem_cons, List.not_mem_nil, or_false]
  rintro p (rfl | rfl | rfl)
  · exact .client hclient
  · exact hworker
  · exact hworker

/-- Of two workers one holds the only job, and it is custody when both have looked for one. -/
theorem Past.custody_in_jobTrade : ∃ (log : List Event) (P : Pool) (j : Job),
    P.Past Program.Staff log ∧ heldBy log 1 = some j ∧ heldBy log 2 = none ∧ P.Custody log := by
  have hrecord : (Pool.record [0, 0, 0, 1, 2, 2, 1]
      ⟨.start ⟨0, 0⟩ 3, jobTrade.map .start⟩).any (fun r =>
        (heldBy r.1 1).isSome && (heldBy r.1 2).isNone) = true := by
    decide +kernel
  simp only [Option.any_eq_true, Bool.and_eq_true, Option.isSome_iff_exists,
    Option.isNone_iff_eq_none] at hrecord
  obtain ⟨⟨log, P⟩, hrecord, ⟨j, hj⟩, hnone⟩ := hrecord
  have hstart : Past Program.Staff [] ⟨.start ⟨0, 0⟩ 3, jobTrade.map .start⟩ :=
    (Past.start ⟨0, 0⟩ 3).begin_all staff_jobTrade
  have hpast := hstart.record hrecord
  exact ⟨log, P, j, hpast, hj, hnone, hpast.custody⟩

end Pool

end Marketplace
