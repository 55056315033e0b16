import Marketplace.Proofs.Import.Draft
import Marketplace.Proofs.Job.Career
import Marketplace.Proofs.Storage.Pool
set_option autoImplicit false

/-!
# When an import may be tried again

An import is tried again only if something breaks down, and neither the storage nor the accounts do:
whatever a price list says, the import of it ends well or for good, in whatever order programs make
their calls.  The one exception is a file that is no text at all, which counts as a file that cannot
be read (`Work.isFailure_importList_iff`).

The proof is one on answers, not on runs: as long as the answers of an import's calls are those of a
storage that does not break down (`Call.Steady`), its result is final.  That such are the answers is
then shown where the import runs alone, and once more where it runs among others.
-/

namespace Marketplace

/-! ## Answers of a storage that does not break down -/

/-- The storage and the accounts do not break down, and the path can be read.  Only the calls that
an import makes matter; other paths may well be unreadable. -/
def Call.Steady (path : String) : (c : Call) → c.Reply → Prop
  | .store (.draft _), .error f => ∀ detail, f ≠ .backend detail
  | .store (.catalog .begin), .error _ => False
  | .account _, .error _ => False
  | .read p, .error _ => p ≠ path
  | _, _ => True

/-- What is wrong with a change of a draft is that it would break a rule.  Every change is looked
at, and each of its faults is named in the source by the rule. -/
theorem DraftCall.ne_backend_of_onDraft {d : Draft} {c : DraftCall} {f : StorageFault}
    (h : c.onDraft d = .error f) (detail : String) : f ≠ .backend detail := by
  rintro rfl
  cases c with
  | shopByName _ | shopByOwner _ | categoryExists _ | deleteListings _ | commit => cases h
  | createShop name owner =>
    simp only [onDraft, Draft.createShop] at h
    split at h
    · cases h
    · split at h <;> cases h
  | ensureCategory k =>
    simp only [onDraft, Draft.ensureCategory] at h
    split at h <;> cases h
  | linkCategory category shop =>
    simp only [onDraft, Draft.linkCategory] at h
    split at h
    · cases h
    · split at h <;> cases h
  | upsertProduct name category =>
    simp only [onDraft, Draft.upsertProduct] at h
    split at h
    · cases h
    · split at h <;> cases h
  | insertListing l =>
    simp only [onDraft, Draft.insertListing] at h
    split at h
    · cases h
    · split at h
      · cases h
      · split at h <;> cases h
  | upsertParameter name =>
    simp only [onDraft, Draft.upsertParameter] at h
    split at h <;> cases h
  | insertParameter listing parameter value =>
    simp only [onDraft, Draft.insertParameter] at h
    split at h
    · cases h
    · split at h
      · cases h
      · split at h <;> cases h

/-- On a draft alone nothing breaks down. -/
theorem Draft.steady_of_handle {d e : Draft} {c : Call} {r : c.Reply} (path : String)
    (h : Draft.handle d c = some (r, e)) : c.Steady path r := by
  cases c with
  | store c =>
    cases c with
    | draft c =>
      simp only [Draft.handle] at h
      split at h
      · cases h
        trivial
      · rename_i hfault
        cases h
        exact DraftCall.ne_backend_of_onDraft hfault
    | _ => cases h
  | _ => cases h

namespace Importer

variable {α β : Type} {path : String}

/-! ## Faults that are final -/

/-- As long as nothing breaks down, what goes wrong need not be tried again.  The parts of an import
are final one by one, and so is what they are bound together to. -/
abbrev Final (path : String) (x : Importer α) : Prop :=
  x.run.Ends (Call.Steady path) fun r => ∀ f, r = .error f → f.isTransient = false

theorem final_pure (a : α) : Final path (pure a : Importer α) := by
  intro f hf
  cases hf

theorem final_throw {f : ImportFault} (hf : f.isTransient = false) :
    Final path (throw f : Importer α) := by
  intro g hg
  cases hg
  exact hf

/-- A fault of the first part is the fault of the whole, and otherwise it is one of the second
part. -/
theorem Final.bind {x : Importer α} {f : α → Importer β} (hx : Final path x)
    (hf : ∀ a, Final path (f a)) : Final path (x >>= f) := by
  rw [Final, Program.bind_exceptT]
  refine Program.Ends.bind hx ?_
  rintro (e | a) hend
  · intro g hg
    cases hg
    exact hend e rfl
  · exact hf a

/-- A broken rule is no reason to try again. -/
theorem isTransient_ofStorage {f : StorageFault} (hf : ∀ detail, f ≠ .backend detail) :
    (ImportFault.ofStorage f).isTransient = false := by
  cases f with
  | backend detail => exact absurd rfl (hf detail)
  | _ => rfl

/-- A fault of the storage may be told as another fault, as long as broken rules stay final. -/
theorem final_draftOr {k : StorageFault → ImportFault}
    (hk : ∀ f, (∀ detail, f ≠ .backend detail) → (k f).isTransient = false) (c : DraftCall) :
    Final path (draftOr k c) := by
  intro r hr
  cases r with
  | ok a => exact final_pure a
  | error f => exact final_throw (hk f hr)

theorem final_draft (c : DraftCall) : Final path (draft c) :=
  final_draftOr (fun _ hf => isTransient_ofStorage hf) c

/-! ## The parts of an import -/

/-- What can be wrong with the shop is that it is somebody else's, or that the user has another
one. -/
theorem final_resolveShop (name : String) (user : UserId) : Final path (resolveShop name user) := by
  refine (final_draft _).bind ?_
  rintro (- | shop)
  · refine (final_draft _).bind ?_
    rintro (- | owned)
    · refine (final_draftOr ?_ _).bind fun _ => final_pure _
      intro f hf
      unfold shopConflict
      split
      · rfl
      · split
        · rfl
        · exact isTransient_ofStorage hf
    · exact final_throw rfl
  · dsimp only
    split
    · exact final_pure _
    · exact final_throw rfl

theorem final_requireCategories (cs : List CategoryId) : Final path (requireCategories cs) := by
  induction cs with
  | nil => exact final_pure _
  | cons c cs ih =>
    refine (final_draft _).bind fun known => ?_
    split
    · exact ih
    · exact final_throw rfl

theorem final_declareCategories (shop : ShopId) (cs : List DeclaredCategory) :
    Final path (declareCategories shop cs) := by
  induction cs with
  | nil => exact final_pure _
  | cons c cs ih => exact (final_draft _).bind fun _ => (final_draft _).bind fun _ => ih

theorem final_linkCategories (shop : ShopId) (cs : List CategoryId) :
    Final path (linkCategories shop cs) := by
  induction cs with
  | nil => exact final_pure _
  | cons c cs ih => exact (final_draft _).bind fun _ => ih

theorem final_insertParameters (listing : ListingId) (ps : List ParameterEntry) :
    Final path (insertParameters listing ps) := by
  induction ps with
  | nil => exact final_pure _
  | cons p ps ih => exact (final_draft _).bind fun _ => (final_draft _).bind fun _ => ih

theorem final_insertGoods (shop : ShopId) (gs : List Good) : Final path (insertGoods shop gs) := by
  induction gs with
  | nil => exact final_pure _
  | cons g gs ih =>
    refine Final.bind ?_ fun _ => ih
    exact (final_draft _).bind fun _ => (final_draft _).bind fun _ => final_insertParameters _ _

theorem final_prepare (list : PriceList) (user : UserId) : Final path (prepare list user) := by
  refine (final_resolveShop _ _).bind fun r => ?_
  refine (final_requireCategories _).bind fun _ => ?_
  refine (final_declareCategories _ _).bind fun _ => ?_
  refine (final_linkCategories _ _).bind fun _ => ?_
  refine (final_draft _).bind fun _ => ?_
  exact (final_insertGoods _ _).bind fun _ => final_pure _

/-- A draft that cannot be had would be a fault that is not final, but it is waited for. -/
theorem Final.inDraft {x : Importer α} (hx : Final path x) : Final path (inDraft x) := by
  rw [Final, inDraft_run]
  rintro (f | -) hr
  · exact hr.elim
  · refine Program.Ends.bind hx ?_
    rintro (e | a) hend
    · exact fun _ _ => final_throw (hend e rfl)
    · exact final_pure a

theorem final_apply (list : PriceList) (user : UserId) : Final path (apply list user) := by
  refine Final.inDraft ?_
  rw [merge_eq]
  exact (final_prepare list user).bind fun _ => (final_draft _).bind fun _ => final_pure _

/-- Nor is a text that is no price list. -/
theorem isTransient_ofPriceList (f : PriceListFault) :
    (ImportFault.ofPriceList f).isTransient = false := by
  cases f <;> rfl

theorem final_importFrom (path : String) (user : UserId) :
    Final path (importFrom (.path path) user) := by
  refine Final.bind ?_ fun text => ?_
  · intro r hr
    cases r with
    | ok text => exact final_pure text
    | error f => exact absurd rfl hr
  · cases PriceList.ofText text with
    | error f => exact final_throw (isTransient_ofPriceList f)
    | ok list => exact final_apply list user

end Importer

/-! ## Imports from a file -/

/-- Bytes are read as a text if they are one.  Otherwise the file counts as one that cannot be read,
and this is the one way for an import of a file that is there to be tried again. -/
theorem FileContent.read_ofBytes_cases (b : ByteArray) :
    (b.IsValidUTF8 ∧ ∃ s, (ofBytes b).read = .ok s) ∨
      (¬b.IsValidUTF8 ∧ ∃ detail, (ofBytes b).read = .error (.unreadable detail)) := by
  unfold ofBytes String.fromUTF8?
  by_cases hvalid : b.IsValidUTF8
  · rw [dif_pos hvalid]
    exact Or.inl ⟨hvalid, _, rfl⟩
  · rw [dif_neg hvalid]
    exact Or.inr ⟨hvalid, _, rfl⟩

namespace World

variable {w : World} {path : String} {b : ByteArray}

/-- The path leads to a file, and these are its bytes, which can all be read.  So what goes wrong is
not for want of a file. -/
structure HasFile (w : World) (path : String) (b : ByteArray) : Prop where
  named : path.toList.contains '\x00' = false
  content : w.files.get? path = some (.ofBytes b)

theorem HasFile.read_eq (h : w.HasFile path b) : w.read path = (FileContent.ofBytes b).read := by
  unfold World.read
  rw [h.named, h.content]
  rfl

/-- The account is known, and it is that of a shop. -/
def IsShop (w : World) (user : UserId) : Prop :=
  ∃ a, w.store.accounts.get? user = some a ∧ a.type = .shop

theorem isShop_iff {user : UserId} :
    w.IsShop user ↔ ((w.store.accounts.get? user).any fun a => a.type = .shop) = true := by
  simp [IsShop, Option.any_eq_true]

end World

namespace Importer

variable {w w' : World} {path : String} {b : ByteArray} {user : UserId}
  {r : Except ImportFault ImportSummary}

theorem run_load_of_ok {text : String} (h : w.read path = .ok text) :
    (load (.path path)).run.run World.handle w = some (.ok text, w) := by
  show some ((w.read path).mapError _, w) = _
  rw [h]
  rfl

/-- A file that cannot be read may be read at another time. -/
theorem exists_run_load_of_unreadable {detail : String}
    (h : w.read path = .error (.unreadable detail)) :
    ∃ f, (load (.path path)).run.run World.handle w = some (.error f, w) ∧
      f.isTransient = true := by
  refine ⟨.failed (.storage s!"reading {path}: {detail}"), ?_, rfl⟩
  show some ((w.read path).mapError _, w) = _
  rw [h]
  rfl

/-- A file that is no price list ends the import at once; any other one is put into the catalog.
Only the bytes decide which of the two it is. -/
theorem run_importFrom_cases (hfile : w.HasFile path b) (user : UserId) :
    (∃ f, (importFrom (.path path) user).run.run World.handle w = some (.error f, w) ∧
      (f.isTransient = true ↔ ¬b.IsValidUTF8)) ∨
    (b.IsValidUTF8 ∧ ∃ list, (importFrom (.path path) user).run.run World.handle w =
      (apply list user).run.run World.handle w) := by
  have hread := hfile.read_eq
  rcases FileContent.read_ofBytes_cases b with ⟨hvalid, text, htext⟩ | ⟨hvalid, detail, hdetail⟩
  · have hrun : (importFrom (.path path) user).run.run World.handle w = _ :=
      Program.run_bind_of_ok (run_load_of_ok (hread.trans htext))
    cases hlist : PriceList.ofText text with
    | error f =>
      rw [hlist] at hrun
      exact Or.inl ⟨_, hrun, by simp [isTransient_ofPriceList, hvalid]⟩
    | ok list =>
      rw [hlist] at hrun
      exact Or.inr ⟨hvalid, list, hrun⟩
  · obtain ⟨f, hload, htransient⟩ := exists_run_load_of_unreadable (hread.trans hdetail)
    exact Or.inl ⟨f, Program.run_bind_of_error hload, iff_of_true htransient hvalid⟩

/-- The import of a file may be tried again exactly if the file is no text. -/
theorem isTransient_importFrom_iff (hfile : w.HasFile path b)
    (hrun : (importFrom (.path path) user).run.run World.handle w = some (r, w')) :
    (∃ f, r = .error f ∧ f.isTransient = true) ↔ ¬b.IsValidUTF8 := by
  rcases run_importFrom_cases hfile user with ⟨f, hf, htransient⟩ | ⟨hvalid, list, hlist⟩
  · cases hf.symm.trans hrun
    rw [← htransient]
    constructor
    · rintro ⟨g, hg, hagain⟩
      cases hg
      exact hagain
    · intro hagain
      exact ⟨f, rfl, hagain⟩
  · obtain ⟨-, e, he, -⟩ := (run_apply list user).mp (hlist.symm.trans hrun)
    have hprepare : Final path (prepare list user) := final_prepare list user
    have hfinal := hprepare.of_run (fun _ _ _ _ hstep => Draft.steady_of_handle path hstep) he
    refine iff_of_false ?_ (not_not_intro hvalid)
    rintro ⟨f, hf, hagain⟩
    rw [hfinal f hf] at hagain
    cases hagain

/-- Where nobody else has a draft, it comes to an end.  With another draft under way it would wait
for that, which alone it does for ever. -/
theorem exists_run_importFrom (hfile : w.HasFile path b) (user : UserId)
    (hw : w.store.draft = none) :
    ∃ r w', (importFrom (.path path) user).run.run World.handle w = some (r, w') := by
  rcases run_importFrom_cases hfile user with ⟨f, hf, -⟩ | ⟨-, list, hlist⟩
  · exact ⟨_, _, hf⟩
  · rw [hlist]
    exact exists_run_apply list user hw

end Importer

/-! ## Among other programs -/

namespace World

variable {w w' : World} {path : String} {b : ByteArray} {m : Option Remainder}

/-- A call about a draft that is under way does not break down. -/
theorem steady_of_act_draft {c : DraftCall} {r : Call.Reply (.store (.draft c))} {cat : Catalog}
    (path : String) (hdraft : w.store.draft = some cat)
    (hact : w.act (.store (.draft c)) = some (r, w', m)) :
    Call.Steady path (.store (.draft c)) r := by
  by_cases hc : c = .commit
  · subst hc
    simp only [act, hdraft] at hact
    cases hact
    trivial
  · have hw : w = w.withDraft ⟨cat, w.store.counters⟩ := by
      rw [withDraft, ← Store.eq_withDraft hdraft]
    have hedit : Call.IsEdit (.store (.draft c)) := hc
    have hwhole : w.act (.store (.draft c)) =
        (w.handle (.store (.draft c))).map fun r => (r.1, r.2, none) := by
      cases c <;> first | rfl | exact absurd rfl hc
    rw [hwhole, hw, handle_withDraft w _ hedit, Option.map_map] at hact
    obtain ⟨⟨r', e⟩, hr, heq⟩ := Option.map_eq_some_iff.mp hact
    cases heq
    exact Draft.steady_of_handle path hr

/-- Nor does reading a file of text. -/
theorem HasFile.steady (h : w.HasFile path b) (hvalid : b.IsValidUTF8) (p : String) :
    Call.Steady path (.read p) (w.read p) := by
  by_cases hp : p = path
  · subst hp
    rcases FileContent.read_ofBytes_cases b with ⟨-, text, htext⟩ | ⟨hbroken, -⟩
    · rw [h.read_eq, htext]
      trivial
    · exact absurd hvalid hbroken
  · cases w.read p with
    | error f => exact hp
    | ok text => trivial

end World

namespace Pool

variable {admitted : Program Unit → Prop} {P : Pool} {i : Nat} {a a' : Activity} {w' : World}
  {c : Call} {r : c.Reply} {path : String} {b : ByteArray}

/-- Whoever has a draft under way finds it. -/
theorem Orderly.exists_draft (h : P.Orderly) (ha : a ∈ P.activities)
    (hdrafting : a.drafting = true) :
    ∃ cat, P.world.store.draft = some cat := by
  cases hdraft : P.world.store.draft with
  | some cat => exact ⟨cat, rfl⟩
  | none =>
    rw [Orderly.no_draft h ha hdraft] at hdrafting
    cases hdrafting

/-- In whatever order programs make their calls, nothing breaks down.  Calls of a draft are allowed
only to who has one under way, and it is there as long as that is so. -/
theorem Reachable.steady (h : P.Reachable admitted) (ha : P.activities[i]? = some a)
    (hd : a.Does P.world (.call c r) w' a') (hfile : P.world.HasFile path b)
    (hvalid : b.IsValidUTF8) : c.Steady path r := by
  cases hd with
  | call hprogram hwhole hallows hact =>
    cases c with
    | store c =>
      cases c with
      | draft c =>
        obtain ⟨cat, hcat⟩ := h.orderly.exists_draft (List.mem_of_getElem? ha) hallows
        exact World.steady_of_act_draft path hcat hact
      | catalog c =>
        cases c with
        | begin =>
          simp only [World.act, World.handle, StoreCall.step, CatalogCall.step, Store.begin?]
            at hact
          split at hact
          · cases hact
          · cases hact
            trivial
        | _ => cases r <;> trivial
      | _ => cases r <;> trivial
    | account id => cases hact; trivial
    | read p =>
      cases hact
      exact hfile.steady hvalid p
    | _ => cases r <;> trivial

/-- The call has been answered so, in some pool, while the path led to a file of these bytes.  This
gives all answers that a program may get among others, without following what the others do. -/
def Answers (admitted : Program Unit → Prop) (path : String) (b : ByteArray) (c : Call)
    (r : c.Reply) : Prop :=
  ∃ (P : Pool) (i : Nat) (a a' : Activity) (w' : World), P.Reachable admitted ∧
    P.world.HasFile path b ∧ P.activities[i]? = some a ∧ a.Does P.world (.call c r) w' a'

end Pool

namespace Work

variable {j : Job} {w w' : World} {path : String} {b : ByteArray} {user : UserId}
  {result : JobResult}

/-- What the outcome of an import says about the job. -/
def judge : Except ImportFault ImportSummary → JobResult
  | .ok summary => .success (some summary.toJson)
  | .error f => if f.isTransient then .failure f.message else .fatal f.message

theorem isFailure_judge_iff {r : Except ImportFault ImportSummary} :
    (judge r).isFailure = true ↔ ∃ f, r = .error f ∧ f.isTransient = true := by
  cases r with
  | ok summary => simp [judge, JobResult.isFailure]
  | error f => cases hf : f.isTransient <;> simp [judge, JobResult.isFailure, hf]

/-- The work asks for the account first, and imports only for a shop. -/
theorem importList_eq {source : PriceListSource} (hj : j.payload = .importPriceList source user) :
    importList j = .call (.account user) fun
      | .error r => .done (.failure r.message)
      | .ok a =>
        if a.any fun a => a.type = .shop then
          (Importer.importFrom source user).run.bind fun r => .done (judge r)
        else
          .done
            (.fatal (ImportFault.permissionDenied s!"account {user} is not a shop").message) := by
  unfold importList
  rw [hj]
  show Program.call _ _ = _
  refine congrArg _ (funext fun r => ?_)
  cases r with
  | error r => rfl
  | ok a =>
    refine if_congr Iff.rfl ?_ rfl
    show Program.bind _ _ = _
    refine congrArg _ (funext fun r => ?_)
    cases r <;> rfl

/-- The work of a shop's job is the import, and its result says how that has gone. -/
theorem run_importList_of_shop (hj : j.payload = .importPriceList (.path path) user)
    (hshop : w.IsShop user) : (importList j).run World.handle w =
      ((Importer.importFrom (.path path) user).run.run World.handle w).map
        fun r => (judge r.1, r.2) := by
  rw [importList_eq hj]
  show Program.run World.handle (if _ then _ else _) w = _
  rw [if_pos (World.isShop_iff.mp hshop), Program.run_bind]
  cases (Importer.importFrom (.path path) user).run.run World.handle w <;> rfl

/-- The job of anybody else ends for good. -/
theorem run_importList_of_not_shop (hj : j.payload = .importPriceList (.path path) user)
    (hshop : ¬w.IsShop user) : (importList j).run World.handle w =
      some (.fatal (ImportFault.permissionDenied s!"account {user} is not a shop").message, w) := by
  rw [importList_eq hj]
  show Program.run World.handle (if _ then _ else _) w = _
  rw [if_neg fun h => hshop (World.isShop_iff.mpr h)]
  rfl

/-- As long as nothing breaks down, an import is not tried again: its faults are final, and so is
the one for accounts that are no shops. -/
theorem ends_importList (hj : j.payload = .importPriceList (.path path) user) :
    (importList j).Ends (Call.Steady path) fun result => result.isFailure = false := by
  rw [importList_eq hj]
  rintro (f | a) hr
  · exact hr.elim
  · show Program.Ends _ _ (if _ then _ else _)
    split
    · refine Program.Ends.bind (Importer.final_importFrom path user) fun r hfinal => ?_
      refine eq_false_of_ne_true fun hfailure => ?_
      obtain ⟨f, hf, hagain⟩ := isFailure_judge_iff.mp hfailure
      rw [hfinal f hf] at hagain
      cases hagain
    · rfl

/-- Whatever the bytes of a file and whoever the job is of, a job that imports the file is tried
again exactly if it is a shop's and the bytes are no text; alone it comes to an end wherever no
draft is under way, and among other programs the import of a text is never tried again either. -/
theorem isFailure_importList_iff (hj : j.payload = .importPriceList (.path path) user)
    (b : ByteArray) :
    (∀ w : World, w.HasFile path b →
      (w.store.draft = none →
        ∃ result w', (importList j).run World.handle w = some (result, w')) ∧
      ∀ result w', (importList j).run World.handle w = some (result, w') →
        (result.isFailure = true ↔ w.IsShop user ∧ ¬b.IsValidUTF8)) ∧
    (b.IsValidUTF8 → ∀ admitted, (importList j).Ends (Pool.Answers admitted path b)
      fun result => result.isFailure = false) := by
  refine ⟨?_, ?_⟩
  · intro w hfile
    by_cases hshop : w.IsShop user
    · rw [run_importList_of_shop hj hshop]
      refine ⟨?_, ?_⟩
      · intro hw
        obtain ⟨r, w', hrun⟩ := Importer.exists_run_importFrom hfile user hw
        exact ⟨judge r, w', by rw [hrun, Option.map_some]⟩
      · intro result w' hresult
        obtain ⟨⟨r, w''⟩, hrun, heq⟩ := Option.map_eq_some_iff.mp hresult
        cases heq
        rw [isFailure_judge_iff, Importer.isTransient_importFrom_iff hfile hrun,
          and_iff_right hshop]
    · have hrun := run_importList_of_not_shop hj hshop
      refine ⟨fun _ => ⟨_, _, hrun⟩, ?_⟩
      intro result w' hresult
      cases hrun.symm.trans hresult
      exact iff_of_false nofun fun h => hshop h.1
  · intro hvalid admitted
    refine (ends_importList hj).anti ?_
    rintro c r ⟨P, i, a, a', w', hP, hfile, ha, hd⟩
    exact hP.steady ha hd hfile hvalid

/-- The job of a shop that imports the file at a path. -/
def fileJob : Job := Job.new (.ofNat 1) ⟨0, 0⟩ ⟨7⟩ (.importPriceList (.path "list.yaml") ⟨7⟩)
where
  /-- The shop is known, and these are the bytes of the file. -/
  world (b : ByteArray) : World :=
    { World.start ⟨0, 0⟩ 3 with
      store := Store.empty.remember ⟨⟨7⟩, "office@example.com", .shop⟩
      files := Table.empty.insert "list.yaml" (.ofBytes b) }

theorem hasFile_fileJob (b : ByteArray) : (fileJob.world b).HasFile "list.yaml" b := by
  refine ⟨by decide +kernel, ?_⟩
  show (Table.insert _ _ _).get? _ = _
  rw [Table.get?_insert, if_pos rfl]

/-- A text that is no price list is judged once. -/
theorem isFailure_importList_of_brokenList : ∃ result w',
    (fileJob.world "shop: [".toByteArray).IsShop ⟨7⟩ ∧
      (importList fileJob).run World.handle (fileJob.world "shop: [".toByteArray) =
        some (result, w') ∧
      result.isFailure = false ∧
      (importList fileJob).Ends (Pool.Answers (fun _ => True) "list.yaml" "shop: [".toByteArray)
        fun result => result.isFailure = false := by
  have hjob : fileJob.payload = .importPriceList (.path "list.yaml") ⟨7⟩ := rfl
  obtain ⟨halone, hamong⟩ := isFailure_importList_iff hjob "shop: [".toByteArray
  have hvalid : "shop: [".toByteArray.IsValidUTF8 := "shop: [".isValidUTF8
  obtain ⟨hends, hfailure⟩ := halone _ (hasFile_fileJob _)
  obtain ⟨result, w', hrun⟩ := hends rfl
  refine ⟨result, w', ⟨_, rfl, rfl⟩, hrun, ?_, hamong hvalid _⟩
  refine eq_false_of_ne_true fun hfailed => ?_
  exact ((hfailure result w' hrun).mp hfailed).2 hvalid

/-- A file that is no text is not judged, and its import is tried again. -/
theorem exists_importList_isFailure :
    ∃ (w : World) (b : ByteArray) (result : JobResult) (w' : World),
    w.store.Reachable ∧ w.HasFile "list.yaml" b ∧
      (importList fileJob).run World.handle w = some (result, w') ∧ result.isFailure = true := by
  have hrun : ((importList fileJob).run World.handle
      (fileJob.world ⟨#[115, 104, 111, 112, 58, 32, 255]⟩)).any
        (fun r => r.1.isFailure) = true := by
    decide +kernel
  rw [Option.any_eq_true] at hrun
  obtain ⟨⟨result, w'⟩, hrun, hfailure⟩ := hrun
  exact ⟨_, _, result, w', .step .empty (.beside _ _), hasFile_fileJob _, hrun, hfailure⟩

end Work

end Marketplace
