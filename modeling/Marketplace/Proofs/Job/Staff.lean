import Marketplace.Proofs.Import.Atomicity
import Marketplace.Proofs.Program.History
import Marketplace.Service.Work
set_option autoImplicit false

/-!
# Workers and clients

A worker claims a job, does its work, and hands it back with the result; in between it holds the
job.  Workers claim nothing more while they hold a job and hand nothing back but what they hold
(`Program.Staff.minds`).  Clients submit jobs, ask for them and put them back; so may the work of
jobs.

That a worker holds a job is nothing that the world records: the store only knows that the job runs.
It is read off the history of the worker's deeds instead, from the claim on to the report, so that
it can be asked of any place at any time (`heldBy`).
-/

namespace Marketplace

/-! ## Holding a job -/

/-- The job that somebody holds after a deed. -/
def Deed.held (h : Option Job) : Deed → Option Job
  | .call (.job .claimNext) (.ok (some j)) => some j
  | .call (.job (.update _)) _ => none
  | .drop => none
  | _ => h

/-- The job that whoever is at a place holds: it has been claimed there and not been handed back. -/
def heldBy (log : List Event) (i : Nat) : Option Job :=
  log.foldl (fun h e => if e.place = i then e.deed.held h else h) none

/-- An event changes what is held at its own place and nowhere else. -/
theorem heldBy_snoc (log : List Event) (i j : Nat) (d : Deed) :
    heldBy (log ++ [⟨i, d⟩]) j = if i = j then d.held (heldBy log j) else heldBy log j :=
  List.foldl_append

/-- The deed hands a job back. -/
def Deed.IsReport (d : Deed) : Prop := ∃ k r, d = .call (.job (.update k)) r

/-- Whoever holds a job has just claimed it, or has held it before and not handed it back. -/
theorem Deed.held_eq_some {d : Deed} {h : Option Job} {j : Job} (hj : d.held h = some j) :
    d = .call (.job .claimNext) (.ok (some j)) ∨ (h = some j ∧ ¬d.IsReport) := by
  unfold held at hj
  split at hj
  · cases hj
    exact Or.inl rfl
  · cases hj
  · cases hj
  · rename_i hclaim hupdate hdrop
    exact Or.inr ⟨hj, fun ⟨k, r, hd⟩ => hupdate k r hd⟩

/-! ## Workers and clients -/

/-- The call is not one of those that are for workers. -/
def Call.isClient : Call → Bool
  | .job .claimNext | .job (.update _) => false
  | _ => true

/-- Whoever holds a job claims no other one, and what it hands back is the job with a result. -/
def Call.Minds (h : Option Job) : Call → Prop
  | .job .claimNext => h = none
  | .job (.update k) =>
    ∃ j started ended result, h = some j ∧ j.finish started ended result = some k
  | _ => True

/-- Calls for clients may be made whether one holds a job or not. -/
theorem Call.minds_of_isClient {c : Call} (hc : c.isClient = true) (h : Option Job) :
    c.Minds h := by
  unfold Minds
  split
  · cases hc
  · cases hc
  · trivial

/-- A call for clients leaves it as it is who holds what. -/
theorem Deed.held_of_isClient {c : Call} (hc : c.isClient = true) (r : c.Reply) (h : Option Job) :
    (Deed.call c r).held h = h := by
  unfold held
  split
  · rename_i hd
    cases hd
    cases hc
  · rename_i hd
    cases hd
    cases hc
  · rename_i hd
    cases hd
  · rfl

namespace Program

variable {α β : Type} {h : Option Job}

/-- The program minds the job that it holds. -/
def Minds : Option Job → Program α → Prop
  | _, .done _ => True
  | h, .call c next => c.Minds h ∧ ∀ r, (next r).Minds ((Deed.call c r).held h)

/-- A program for clients only. -/
def IsClient (p : Program α) : Prop := p.Calls fun c => c.isClient = true

/-- What a client does first changes nothing about what is held, so the rest may go on as if from
the beginning. -/
theorem IsClient.minds_bind {p : Program α} {f : α → Program β} (hp : p.IsClient)
    (hf : ∀ a, (f a).Minds h) : (p.bind f).Minds h := by
  induction p with
  | done a => exact hf a
  | call c next ih =>
    refine ⟨Call.minds_of_isClient hp.1 h, fun r => ?_⟩
    rw [Deed.held_of_isClient hp.1]
    exact ih r (hp.2 r)

theorem IsClient.minds {p : Program α} (hp : p.IsClient) : p.Minds h := by
  have hbind := hp.minds_bind (f := done) (h := h) fun a => trivial
  rwa [bind_done] at hbind

theorem Minds.bind_done {p : Program α} (hp : p.Minds h) (f : α → β) :
    (p.bind fun a => .done (f a)).Minds h := by
  induction p generalizing h with
  | done a => trivial
  | call c next ih => exact ⟨hp.1, fun r => ih r (hp.2 r)⟩

end Program

namespace Work

variable {j : Job} {started : Instant}

/-- A report is made of the job that is held, and only if the job can end this way. -/
theorem minds_conclude (result : JobResult) : (conclude j started result).run.Minds (some j) := by
  refine ⟨trivial, fun ended => ?_⟩
  dsimp only [Program.bind]
  cases hfinish : j.finish started ended result with
  | none => trivial
  | some k => exact ⟨⟨j, started, ended, result, rfl, hfinish⟩, fun r => by cases r <;> trivial⟩

/-- The work itself is a client's, whatever it is; before and after it the worker holds the same
job. -/
theorem minds_execute {work? : Option (Job → Program JobResult)}
    (hwork : ∀ work, work? = some work → ∀ j, (work j).IsClient) :
    (execute work? j).run.Minds (some j) := by
  refine ⟨trivial, fun started => ?_⟩
  cases work? with
  | none => exact minds_conclude (unhandled j)
  | some work =>
    show Program.Minds (some j) (Program.bind ((work j).bind fun r => .done (some r)) _)
    rw [Program.bind_assoc]
    exact (hwork work rfl j).minds_bind fun result => minds_conclude result

/-- Whoever takes a turn minds the job. -/
theorem minds_turn {work? : JobKind → Option (Job → Program JobResult)}
    (hwork : ∀ kind work, work? kind = some work → ∀ j, (work j).IsClient) :
    (turn work?).Minds none := by
  refine ⟨rfl, fun r => ?_⟩
  rcases r with f | j?
  · trivial
  · cases j? with
    | none => trivial
    | some j => exact (minds_execute (hwork j.kind)).bind_done fun o => some (j, o)

end Work

/-- What is at work on jobs: clients, and workers that each claim a job and run it with work that
makes calls for clients only. -/
inductive Program.Staff : Program Unit → Prop
  | client {p : Program Unit} (hp : p.IsClient) : Staff p
  | worker {work? : JobKind → Option (Job → Program JobResult)}
      (hwork : ∀ kind work, work? kind = some work → ∀ j, (work j).IsClient) :
    Staff ((Work.turn work?).bind fun _ => .done ())

theorem Program.Staff.minds {p : Program Unit} (hp : p.Staff) : p.Minds none := by
  cases hp with
  | client hp => exact hp.minds
  | worker hwork => exact (Work.minds_turn hwork).bind_done _

/-! ## The server's own staff -/

namespace JobService

theorem isClient_submit (j : Job) : (submit j).run.IsClient := ⟨rfl, fun _ => trivial⟩

end JobService

namespace Notify

theorem isClient_ownerMails (d : OrderDetail) (ids : List ShopId) (seen : List String) :
    (ownerMails d ids seen).run.IsClient := by
  induction ids generalizing seen with
  | nil => trivial
  | cons id ids ih =>
    refine .exceptT_bind ⟨rfl, fun _ => trivial⟩ fun shop => ?_
    rcases shop with - | shop
    · exact ih seen
    · refine .exceptT_bind ⟨rfl, fun _ => trivial⟩ fun owner => ?_
      rcases owner with - | owner
      · exact .exceptT_bind (ih seen) fun _ => trivial
      · simp only
        split
        · exact ih seen
        · exact .exceptT_bind (ih _) fun _ => trivial

theorem isClient_sendAll (ms : List Mail) : (sendAll ms).IsClient := by
  induction ms with
  | nil => trivial
  | cons m ms ih => exact ⟨rfl, fun r => ih.bind fun _ => trivial⟩

theorem isClient_order (buyer : UserId) (id : OrderId) : (order buyer id).run.IsClient := by
  refine .exceptT_bind ⟨rfl, fun _ => trivial⟩ fun found => ?_
  refine .exceptT_bind (by cases found <;> trivial) fun d => ?_
  refine .exceptT_bind (by cases d.order.ensureOwnedBy buyer <;> trivial) fun _ => ?_
  refine .exceptT_bind ?_ fun batch => ?_
  · refine .exceptT_bind ⟨rfl, fun _ => trivial⟩ fun account => ?_
    exact .exceptT_bind (isClient_ownerMails _ _ _) fun owners => trivial
  · exact .exceptT_bind ((isClient_sendAll _).bind fun _ => trivial) fun _ => trivial

end Notify

theorem Importer.isClient_importFrom (source : PriceListSource) (user : UserId) :
    (importFrom source user).run.IsClient := by
  refine .exceptT_bind ?_ fun text => ?_
  · cases source with
    | document text => trivial
    | path path => exact ⟨rfl, fun _ => trivial⟩
  · cases PriceList.ofText text with
    | error f => trivial
    | ok list =>
      refine (calls_apply list user).imp fun c hc => ?_
      rcases hc with (rfl | hedit | rfl) | rfl
      · rfl
      · cases c with
        | job c => exact hedit.elim
        | _ => rfl
      · rfl
      · rfl

namespace Work

theorem isClient_importList (j : Job) : (importList j).IsClient := by
  unfold importList
  split
  · refine ⟨rfl, fun account => ?_⟩
    rcases account with r | account
    · trivial
    · show Program.IsClient (if _ then _ else _)
      split
      · exact (Importer.isClient_importFrom _ _).bind fun r => by cases r <;> trivial
      · trivial
  · trivial

theorem isClient_notifyPlaced (j : Job) : (notifyPlaced j).IsClient := by
  unfold notifyPlaced
  split
  · exact (Notify.isClient_order _ _).bind fun r => by cases r <;> trivial
  · trivial

end Work

/-- The workers of the server are staff. -/
theorem Program.Staff.server :
    Staff ((Work.turn fun kind => some (Work.ofKind kind)).bind fun _ => .done ()) := by
  refine .worker fun kind work hwork j => ?_
  cases hwork
  cases kind with
  | importPriceList => exact Work.isClient_importList j
  | notifyOrderPlaced => exact Work.isClient_notifyPlaced j

end Marketplace
