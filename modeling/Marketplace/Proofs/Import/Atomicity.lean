import Marketplace.Proofs.Import.Draft
set_option autoImplicit false

/-!
# Imports happen as a whole or not at all

An import that fails, and one that is given up anywhere between opening its draft and committing it,
leaves the world as it was before, but for the counters of identifiers, which never go back.
-/

namespace Marketplace

/-- What the first world has is in the second one unchanged; only counters may have advanced. -/
structure World.Untouched (w w' : World) : Prop where
  same : w' = w.withCounters w'.store.counters
  counters : w.store.counters ≤ w'.store.counters

/-- No call about the draft takes a counter back. -/
theorem DraftCall.onDraft_counters {d e : Draft} {c : DraftCall} {a : c.Result}
    (h : c.onDraft d = .ok (a, e)) : d.counters ≤ e.counters := by
  obtain ⟨hshop, hproduct, hlisting, hparameter⟩ := Draft.counters_le d.counters
  have hsame := CatalogCounters.le_refl d.counters
  cases c with
  | shopByName _ => cases h; exact hsame
  | shopByOwner _ => cases h; exact hsame
  | categoryExists _ => cases h; exact hsame
  | commit => cases h; exact hsame
  | createShop _ _ => obtain ⟨-, -, -, rfl⟩ := Draft.createShop_ok h; exact hshop
  | ensureCategory _ => rcases Draft.ensureCategory_ok h with ⟨-, rfl⟩ | ⟨-, rfl⟩ <;> exact hsame
  | linkCategory _ _ => obtain ⟨-, row, -, rfl⟩ := Draft.linkCategory_ok h; exact hsame
  | deleteListings _ => obtain ⟨-, rfl⟩ := Draft.deleteListings_ok h; exact hsame
  | upsertProduct _ _ =>
    obtain ⟨-, ⟨-, rfl⟩ | ⟨-, -, rfl⟩⟩ := Draft.upsertProduct_ok h
    · exact hsame
    · exact hproduct
  | insertListing _ => obtain ⟨-, -, -, -, -, -, rfl⟩ := Draft.insertListing_ok h; exact hlisting
  | upsertParameter _ =>
    rcases Draft.upsertParameter_ok h with ⟨-, rfl⟩ | ⟨-, -, rfl⟩
    · exact hsame
    · exact hparameter
  | insertParameter _ _ _ => obtain ⟨-, -, -, rfl⟩ := Draft.insertParameter_ok h; exact hsame

/-- Nor does a program that works on the draft. -/
theorem Program.counters_of_run_draft {α : Type} {p : Program α} {d e : Draft} {a : α}
    (h : p.run Draft.handle d = some (a, e)) : d.counters ≤ e.counters :=
  run_draft_invariant (I := fun u => d.counters ≤ u.counters)
    (fun hle hc => CatalogCounters.le_trans hle (DraftCall.onDraft_counters hc))
    (CatalogCounters.le_refl d.counters) h

/-- Opening a draft. -/
abbrev Call.begin : Call := .store (.catalog .begin)

/-- Committing the draft. -/
abbrev Call.commit : Call := .store (.draft .commit)

/-- A call that an import makes before its commit. -/
def Call.BeforeCommit (c : Call) : Prop := c = .begin ∨ c.IsEdit ∨ c = .discard

/-- What such a call does is undone by giving the draft up; only counters stay advanced. -/
theorem World.discard_handle {w w' : World} {c : Call} {r : c.Reply} (hc : c.BeforeCommit)
    (h : w.handle c = some (r, w')) :
    w'.discard = w.discard.withCounters w'.store.counters ∧
      w.store.counters ≤ w'.store.counters := by
  rcases hc with rfl | hedit | rfl
  · simp only [handle, StoreCall.step, CatalogCall.step, Store.begin?] at h
    split at h
    · cases h
    · cases h
      exact ⟨rfl, CatalogCounters.le_refl _⟩
  · cases hd : w.store.draft with
    | none =>
      have hsame : w' = w := by
        cases c with
        | store c =>
          cases c with
          | draft c =>
            have hstep := DraftCall.step_of_no_draft hd c
            cases h
            rw [hstep]
          | _ => exact hedit.elim
        | _ => exact hedit.elim
      subst hsame
      exact ⟨rfl, CatalogCounters.le_refl _⟩
    | some cat =>
      have hw : w = w.withDraft ⟨cat, w.store.counters⟩ := by
        rw [withDraft, ← Store.eq_withDraft hd]
      rw [hw, handle_withDraft w _ hedit, Option.map_eq_some_iff] at h
      obtain ⟨⟨r', e⟩, hr, he⟩ := h
      cases he
      have hrun : (Program.ask c).run Draft.handle ⟨cat, w.store.counters⟩ = some (r', e) := by
        simp only [Program.ask, Program.run, hr]
      exact ⟨rfl, Program.counters_of_run_draft hrun⟩
  · cases h
    exact ⟨rfl, CatalogCounters.le_refl _⟩

namespace Importer

/-- All that an import asks for is opening a draft, working on it, committing it and giving it
up. -/
theorem calls_apply (list : PriceList) (user : UserId) :
    (apply list user).run.Calls fun c => c.BeforeCommit ∨ c = .commit := by
  have hedits : (prepare list user).run.Calls fun c => c.BeforeCommit ∨ c = .commit :=
    (edits_prepare list user).imp fun _ hc => Or.inl (Or.inr (Or.inl hc))
  have hmerge : (merge list user).run.Calls fun c => c.BeforeCommit ∨ c = .commit := by
    rw [merge_eq]
    refine Program.Calls.exceptT_bind hedits fun summary => ?_
    exact ⟨Or.inr rfl, fun r => by cases r <;> trivial⟩
  rw [apply, inDraft_run]
  refine ⟨Or.inl (Or.inl rfl), ?_⟩
  rintro (f | ⟨⟩)
  · trivial
  · refine hmerge.bind ?_
    rintro (f | summary)
    · exact ⟨Or.inl (Or.inr (Or.inr rfl)), fun _ => trivial⟩
    · trivial

/-- An import opens its draft first, which works only where there is no other one. -/
theorem no_draft_of_begun {list : PriceList} {user : UserId} {w w' : World} {calls : List Call}
    {q : Program (Except ImportFault ImportSummary)}
    (h : Program.Made World.handle (apply list user).run w calls q w') (hbegun : .begin ∈ calls) :
    w.store.draft = none := by
  rw [apply, inDraft_run] at h
  cases h with
  | none => cases hbegun
  | next hc _ =>
    simp only [World.handle, StoreCall.step, CatalogCall.step, Store.begin?] at hc
    split at hc
    · cases hc
    · assumption

/-- An import that ends with a fault leaves the world untouched, and so does one whose draft is
given up after any of its calls up to the commit. -/
theorem untouched_of_not_committed (list : PriceList) (user : UserId) (w : World) :
    (∀ f w', (apply list user).run.run World.handle w = some (.error f, w') → w.Untouched w') ∧
      ∀ calls q w', Program.Made World.handle (apply list user).run w calls q w' →
        .begin ∈ calls → .commit ∉ calls → w.Untouched w'.discard := by
  constructor
  · intro f w' h
    obtain ⟨-, e, he, rfl⟩ := (run_apply list user).mp h
    exact ⟨rfl, Program.counters_of_run_draft he⟩
  · intro calls q w' h hbegun hcommit
    have hnone := no_draft_of_begun h hbegun
    have hcalls : ∀ c ∈ calls, c.BeforeCommit := by
      intro c hc
      rcases h.of_calls (calls_apply list user) c hc with hbefore | rfl
      · exact hbefore
      · exact absurd hc hcommit
    have hstart : w.Untouched w.discard := by
      refine ⟨?_, CatalogCounters.le_refl _⟩
      simp only [World.discard, Store.discard, World.withCounters]
      rw [← hnone]
    refine h.invariant (I := fun v => w.Untouched v.discard) ?_ hcalls hstart
    intro s t c r hc hstep hs
    obtain ⟨hsame, hle⟩ := World.discard_handle hc hstep
    refine ⟨?_, CatalogCounters.le_trans hs.counters hle⟩
    rw [hsame, hs.same]
    rfl

/-- A price list whose only good is of a category that nobody has declared. -/
def strayList : PriceList := ⟨"Svyaznoy", [], [⟨1, ⟨224⟩, "Phone", "x", 5, 6, 7, []⟩]⟩

/-- The import of such a list fails, and it may also be cut short when it has just added its
shop. -/
theorem untouched_by_strayList :
    let w := World.start ⟨0, 0⟩ 3
    (∃ f w', (apply strayList ⟨1⟩).run.run World.handle w = some (.error f, w') ∧
      w.Untouched w') ∧
      ∃ calls q w', Program.Made World.handle (apply strayList ⟨1⟩).run w calls q w' ∧
        .begin ∈ calls ∧ .commit ∉ calls ∧ w'.store.draft ≠ some .empty ∧
        w.Untouched w'.discard := by
  intro w
  obtain ⟨hfails, hcut⟩ := untouched_of_not_committed strayList ⟨1⟩ w
  have hrun : (apply strayList ⟨1⟩).run.run World.handle w =
      some (.error (.invalidArguments
        "category 224 is neither declared in the price list nor known"),
        w.withCounters ⟨1, 0, 0, 0⟩) := by rfl
  have hmade : Program.Made World.handle (apply strayList ⟨1⟩).run w
      [.begin, .store (.draft (.shopByName "Svyaznoy")), .store (.draft (.shopByOwner ⟨1⟩)),
        .store (.draft (.createShop "Svyaznoy" ⟨1⟩))] _ _ :=
    .next rfl (.next rfl (.next rfl (.next rfl (.none _ _))))
  refine ⟨⟨_, _, hrun, hfails _ _ hrun⟩, _, _, _, hmade, by simp, by simp, ?_,
    hcut _ _ _ hmade (by simp) (by simp)⟩
  decide

end Importer

end Marketplace
