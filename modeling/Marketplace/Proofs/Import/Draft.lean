import Marketplace.Proofs.Program.Run
import Marketplace.Proofs.Storage.DraftCall
import Marketplace.Service.Import
set_option autoImplicit false

/-!
# Imports as work on a draft

All that an import does between opening its draft and committing it concerns the draft alone.
`Importer.prepare` is that part; run on a draft it always ends, and the run of a whole import in any
world is that run with the opening before it and a commit, or giving the draft up, behind it
(`run_apply`).
-/

namespace Marketplace

/-- The call asks or changes a draft and does not commit it.  Such a call needs nothing of the world
but the draft. -/
def Call.IsEdit : Call → Prop
  | .store (.draft c) => c ≠ .commit
  | _ => False

namespace Draft

/-- Answers calls about a draft where there is nothing else.  A call that is about something else
has no answer here, so that programs for which this handler does are those that only edit. -/
def handle : Program.Handler Draft
  | d, .store (.draft c) =>
    match c.onDraft d with
    | .ok (a, e) => some (.ok a, e)
    | .error f => some (.error f, d)
  | _, _ => none

end Draft

/-- The world with a draft under way. -/
def World.withDraft (w : World) (d : Draft) : World := { w with store := w.store.withDraft d }

/-- The world with other counters. -/
def World.withCounters (w : World) (n : CatalogCounters) : World :=
  { w with store := { w.store with counters := n } }

/-- The world in which the draft has been given up. -/
def World.discard (w : World) : World := { w with store := w.store.discard }

/-- A call about the draft does to the world what it does to the draft, and what it does to the
counters is part of the draft. -/
theorem World.handle_withDraft (w : World) (d : Draft) {c : Call} (hc : c.IsEdit) :
    (w.withDraft d).handle c = (Draft.handle d c).map fun r => (r.1, w.withDraft r.2) := by
  cases c with
  | store c =>
    cases c with
    | draft c =>
      have hstep := DraftCall.step_withDraft w.store d hc
      cases h : c.onDraft d with
      | ok r =>
        rw [h] at hstep
        simp only [World.handle, StoreCall.step, Option.map_some, Draft.handle, h]
        simp only [World.withDraft, hstep, DraftCall.reply]
      | error f =>
        rw [h] at hstep
        simp only [World.handle, StoreCall.step, Option.map_some, Draft.handle, h]
        simp only [World.withDraft, hstep, DraftCall.reply]
    | _ => exact hc.elim
  | _ => exact hc.elim

namespace Program

variable {α : Type} {p : Program α}

/-- A program that only works on the draft does in the world what it does on the draft.  This
carries all that is shown of drafts over to worlds. -/
theorem run_withDraft (hp : p.Calls Call.IsEdit) (w : World) (d : Draft) :
    p.run World.handle (w.withDraft d) =
      (p.run Draft.handle d).map fun r => (r.1, w.withDraft r.2) := by
  induction p generalizing d with
  | done a => rfl
  | call c next ih =>
    simp only [run, World.handle_withDraft w d hp.1]
    cases Draft.handle d c with
    | none => rfl
    | some r => exact ih r.1 (hp.2 r.1) r.2

/-- A program that only works on the draft comes to its end, for none of its calls waits. -/
theorem exists_run_draft (hp : p.Calls Call.IsEdit) (d : Draft) :
    ∃ a e, p.run Draft.handle d = some (a, e) := by
  induction p generalizing d with
  | done a => exact ⟨a, d, rfl⟩
  | call c next ih =>
    have hanswer : ∃ r, Draft.handle d c = some r := by
      cases c with
      | store c =>
        cases c with
        | draft c =>
          simp only [Draft.handle]
          split <;> exact ⟨_, rfl⟩
        | _ => exact hp.1.elim
      | _ => exact hp.1.elim
    obtain ⟨r, hr⟩ := hanswer
    obtain ⟨a, e, h⟩ := ih r.1 (hp.2 r.1) r.2
    exact ⟨a, e, by simp only [run, hr, h]⟩

/-- What one call about the draft keeps, a whole program keeps, by induction on the program. -/
theorem run_draft_invariant {I : Draft → Prop}
    (hstep : ∀ {d e : Draft} {c : DraftCall} {a : c.Result}, I d → c.onDraft d = .ok (a, e) → I e)
    {d e : Draft} {a : α} (hd : I d) (h : p.run Draft.handle d = some (a, e)) : I e := by
  induction p generalizing d with
  | done b =>
    cases h
    exact hd
  | call c next ih =>
    simp only [run] at h
    split at h
    · cases h
    · rename_i r t hr
      refine ih r ?_ h
      simp only [Draft.handle] at hr
      split at hr
      · split at hr
        · rename_i hc
          cases hr
          exact hstep hd hc
        · cases hr
          exact hd
      · cases hr

end Program

namespace Importer

variable {α β : Type}

/-! ## Programs that only work on the draft -/

/-- Between its calls the program only works on the draft.  Each part of an import does, and so do
parts that are bound together. -/
abbrev Edits (x : Importer α) : Prop := Program.Calls Call.IsEdit x.run

theorem edits_pure (a : α) : Edits (pure a : Importer α) := trivial

theorem edits_throw (f : ImportFault) : Edits (throw f : Importer α) := trivial

theorem Edits.bind {x : Importer α} {f : α → Importer β} (hx : Edits x)
    (hf : ∀ a, Edits (f a)) : Edits (x >>= f) :=
  Program.Calls.exceptT_bind hx hf

theorem edits_draftOr (f : StorageFault → ImportFault) {c : DraftCall} (hc : c ≠ .commit) :
    Edits (draftOr f c) :=
  ⟨hc, fun _ => trivial⟩

theorem edits_draft {c : DraftCall} (hc : c ≠ .commit) : Edits (draft c) := edits_draftOr _ hc

theorem edits_resolveShop (name : String) (user : UserId) : Edits (resolveShop name user) := by
  refine (edits_draft (by simp)).bind ?_
  rintro (- | shop)
  · refine (edits_draft (by simp)).bind ?_
    rintro (- | owned)
    · exact (edits_draftOr _ (by simp)).bind fun _ => edits_pure _
    · exact edits_throw _
  · dsimp only
    split
    · exact edits_pure _
    · exact edits_throw _

theorem edits_requireCategories (cs : List CategoryId) : Edits (requireCategories cs) := by
  induction cs with
  | nil => exact edits_pure _
  | cons c cs ih =>
    refine (edits_draft (by simp)).bind fun known => ?_
    split
    · exact ih
    · exact edits_throw _

theorem edits_declareCategories (shop : ShopId) (cs : List DeclaredCategory) :
    Edits (declareCategories shop cs) := by
  induction cs with
  | nil => exact edits_pure _
  | cons c cs ih =>
    exact (edits_draft (by simp)).bind fun _ => (edits_draft (by simp)).bind fun _ => ih

theorem edits_linkCategories (shop : ShopId) (cs : List CategoryId) :
    Edits (linkCategories shop cs) := by
  induction cs with
  | nil => exact edits_pure _
  | cons c cs ih => exact (edits_draft (by simp)).bind fun _ => ih

theorem edits_insertParameters (listing : ListingId) (ps : List ParameterEntry) :
    Edits (insertParameters listing ps) := by
  induction ps with
  | nil => exact edits_pure _
  | cons p ps ih =>
    exact (edits_draft (by simp)).bind fun _ => (edits_draft (by simp)).bind fun _ => ih

theorem edits_insertGoods (shop : ShopId) (gs : List Good) : Edits (insertGoods shop gs) := by
  induction gs with
  | nil => exact edits_pure _
  | cons g gs ih =>
    refine Edits.bind ?_ fun _ => ih
    exact (edits_draft (by simp)).bind fun _ => (edits_draft (by simp)).bind fun _ =>
      edits_insertParameters _ _

/-! ## An import without its commit -/

/-- All that an import does in its draft: everything but the commit.  It is not a part of the import
as it is written, but its beginning up to the last call. -/
def prepare (list : PriceList) (user : UserId) : Importer ImportSummary := do
  let (shop, created) ← resolveShop (Text.trim list.shop) user
  requireCategories list.undeclared
  declareCategories shop.id list.categories
  linkCategories shop.id list.undeclared
  let _ ← draft (.deleteListings shop.id)
  insertGoods shop.id list.goods
  pure ⟨shop.id, created, list.categories.length, list.goods.length,
    list.goods.foldr (fun g n => g.parameters.length + n) 0⟩

theorem edits_prepare (list : PriceList) (user : UserId) : Edits (prepare list user) := by
  refine (edits_resolveShop _ _).bind fun r => ?_
  refine (edits_requireCategories _).bind fun _ => ?_
  refine (edits_declareCategories _ _).bind fun _ => ?_
  refine (edits_linkCategories _ _).bind fun _ => ?_
  refine (edits_draft (by simp)).bind fun _ => ?_
  exact (edits_insertGoods _ _).bind fun _ => edits_pure _

theorem merge_eq (list : PriceList) (user : UserId) :
    merge list user =
      prepare list user >>= fun summary => draft .commit >>= fun _ => pure summary := by
  simp [merge, prepare]

/-- Merging a price list is preparing it, and then committing the draft if nothing went wrong. -/
theorem run_merge (list : PriceList) (user : UserId) (w : World) (d : Draft) :
    (merge list user).run.run World.handle (w.withDraft d) =
      ((prepare list user).run.run Draft.handle d).map fun r =>
        match r.1 with
        | .ok summary => (.ok summary, { w with store := (w.store.withDraft r.2).commit })
        | .error f => (.error f, w.withDraft r.2) := by
  rw [merge_eq, Program.bind_exceptT, Program.run_bind,
    Program.run_withDraft (edits_prepare list user), Option.bind_map]
  cases (prepare list user).run.run Draft.handle d with
  | none => rfl
  | some r =>
    obtain ⟨(f | summary), e⟩ := r
    · rfl
    · rfl

/-- Work in a draft begins with opening it, and giving it up ends what fails. -/
theorem inDraft_run (x : Importer α) :
    (inDraft x).run = .call (.store (.catalog .begin)) (fun
      | .error f => .done (.error (.ofStorage f))
      | .ok () => x.run.bind fun
        | .ok a => .done (.ok a)
        | .error e => .call .discard fun _ => .done (.error e)) := by
  simp only [inDraft, ExceptT.run_mk, Program.ask]
  refine congrArg _ (funext fun r => ?_)
  cases r <;> rfl

/-- Work in a draft waits as long as there is another one, and gives its own up if it fails.  In
both cases the published catalog is what it was. -/
theorem run_inDraft (x : Importer α) (w : World) :
    (inDraft x).run.run World.handle w =
      match w.store.draft with
      | some _ => none
      | none =>
        (x.run.run World.handle (w.withDraft ⟨w.store.catalog, w.store.counters⟩)).map fun r =>
          match r.1 with
          | .ok a => (.ok a, r.2)
          | .error f => (.error f, r.2.discard) := by
  have hbegin : World.handle w (.store (.catalog .begin)) =
      match w.store.draft with
      | some _ => none
      | none => some (.ok (), w.withDraft ⟨w.store.catalog, w.store.counters⟩) := by
    simp only [World.handle, StoreCall.step, CatalogCall.step, Store.begin?]
    cases w.store.draft <;> rfl
  rw [inDraft_run, Program.run, hbegin]
  cases w.store.draft with
  | some c => rfl
  | none =>
    simp only [Program.run_bind]
    cases x.run.run World.handle (w.withDraft ⟨w.store.catalog, w.store.counters⟩) with
    | none => rfl
    | some r =>
      obtain ⟨(f | a), v⟩ := r <;> rfl

/-- A whole import: it waits as long as there is another draft, prepares its own from the published
catalog, and then commits it or gives it up. -/
theorem run_apply (list : PriceList) (user : UserId) {w w' : World}
    {r : Except ImportFault ImportSummary} :
    (apply list user).run.run World.handle w = some (r, w') ↔
      w.store.draft = none ∧ ∃ e,
        (prepare list user).run.run Draft.handle ⟨w.store.catalog, w.store.counters⟩ =
          some (r, e) ∧
          w' = match r with
            | .ok _ => { w with store := (w.store.withDraft e).commit }
            | .error _ => w.withCounters e.counters := by
  rw [apply, run_inDraft]
  cases hd : w.store.draft with
  | some c => simp
  | none =>
    obtain ⟨a, e, he⟩ := Program.exists_run_draft (edits_prepare list user)
      ⟨w.store.catalog, w.store.counters⟩
    have hgiven : (w.withDraft e).discard = w.withCounters e.counters := by
      simp only [World.discard, World.withDraft, Store.withDraft, Store.discard,
        World.withCounters]
      rw [← hd]
    simp only [run_merge, he, Option.map_some, Option.some.injEq, Prod.mk.injEq, true_and]
    cases a with
    | error f =>
      rw [hgiven]
      constructor
      · intro h
        cases h
        exact ⟨e, ⟨rfl, rfl⟩, rfl⟩
      · rintro ⟨e', ⟨rfl, rfl⟩, rfl⟩
        rfl
    | ok summary =>
      constructor
      · intro h
        cases h
        exact ⟨e, ⟨rfl, rfl⟩, rfl⟩
      · rintro ⟨e', ⟨rfl, rfl⟩, rfl⟩
        rfl

/-- Where nobody else has a draft, an import comes to its end. -/
theorem exists_run_apply (list : PriceList) (user : UserId) {w : World}
    (hw : w.store.draft = none) :
    ∃ r w', (apply list user).run.run World.handle w = some (r, w') := by
  obtain ⟨r, e, he⟩ := Program.exists_run_draft (edits_prepare list user)
    ⟨w.store.catalog, w.store.counters⟩
  exact ⟨r, _, (run_apply list user).mpr ⟨hw, e, he, rfl⟩⟩

end Importer

end Marketplace
