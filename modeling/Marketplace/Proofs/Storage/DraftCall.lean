import Marketplace.Proofs.Catalog.Coherent
import Marketplace.Storage.Call
set_option autoImplicit false

/-!
# Calls about the draft

A call about the draft, other than the commit, sees nothing of a store but its draft and its
counters.  `DraftCall.onDraft` is the call as a change of a draft alone.

Stating the calls on drafts splits what they do to tables from the question which store they work
on, so that coherence and growth are proved of drafts once and hold of every store that has one.
-/

namespace Marketplace

/-- The store with a draft under way. -/
def Store.withDraft (s : Store) (d : Draft) : Store :=
  { s with draft := some d.catalog, counters := d.counters }

/-- A store whose draft is under way. -/
theorem Store.eq_withDraft {s : Store} {c : Catalog} (h : s.draft = some c) :
    s = s.withDraft ⟨c, s.counters⟩ := by
  simp only [withDraft]
  rw [← h]

namespace DraftCall

/-- What a call makes of the draft.  A commit leaves the draft as it is. -/
def onDraft (d : Draft) : (c : DraftCall) → Except StorageFault (c.Result × Draft)
  | .shopByName name => .ok (d.catalog.shopNamed? name, d)
  | .shopByOwner owner => .ok (d.catalog.shopOf? owner, d)
  | .createShop name owner => Draft.createShop name owner d
  | .categoryExists id => .ok (d.catalog.categories.contains id, d)
  | .ensureCategory category => Draft.ensureCategory category d
  | .linkCategory category shop => Draft.linkCategory category shop d
  | .deleteListings shop => Draft.deleteListings shop d
  | .upsertProduct name category => Draft.upsertProduct name category d
  | .insertListing listing => Draft.insertListing listing d
  | .upsertParameter name => Draft.upsertParameter name d
  | .insertParameter listing parameter value => Draft.insertParameter listing parameter value d
  | .commit => .ok ((), d)

/-- The answer and the store that come of an answer and a draft. -/
def reply {α : Type} (s : Store) (d : Draft) :
    Except StorageFault (α × Draft) → Except StorageFault α × Store
  | .error f => (.error f, s.withDraft d)
  | .ok (a, e) => (.ok a, s.withDraft e)

/-- An edit of a store that has a draft is the edit of the draft. -/
theorem edit_withDraft {α : Type} (s : Store) (d : Draft) (f : Edit α) :
    (s.withDraft d).edit f = reply s d (f d) := by
  simp only [Store.edit, Store.withDraft]
  cases h : f ⟨d.catalog, d.counters⟩ with
  | error e => simp [reply, Store.withDraft]
  | ok r => simp [reply, Store.withDraft]

/-- Where a draft is under way, a call other than the commit does to the store what it does to the
draft. -/
theorem step_withDraft (s : Store) (d : Draft) {c : DraftCall} (hc : c ≠ .commit) :
    c.step (s.withDraft d) = reply s d (c.onDraft d) := by
  cases c with
  | commit => exact absurd rfl hc
  | shopByName _ => rfl
  | shopByOwner _ => rfl
  | categoryExists _ => rfl
  | createShop _ _ => exact edit_withDraft s d _
  | ensureCategory _ => exact edit_withDraft s d _
  | linkCategory _ _ => exact edit_withDraft s d _
  | deleteListings shop => exact edit_withDraft s d (Draft.deleteListings shop)
  | upsertProduct _ _ => exact edit_withDraft s d _
  | insertListing _ => exact edit_withDraft s d _
  | upsertParameter _ => exact edit_withDraft s d _
  | insertParameter _ _ _ => exact edit_withDraft s d _

/-- Where no draft is under way, a call about it changes nothing. -/
theorem step_of_no_draft {s : Store} (h : s.draft = none) (c : DraftCall) : (c.step s).2 = s := by
  cases c <;> simp [step, Store.edit, h]

/-- A call other than the commit changes nothing or takes the draft further. -/
theorem step_cases (s : Store) {c : DraftCall} (hc : c ≠ .commit) :
    (c.step s).2 = s ∨ ∃ (d e : Draft) (a : c.Result),
      s = s.withDraft d ∧ c.onDraft d = .ok (a, e) ∧ (c.step s).2 = s.withDraft e := by
  cases hdraft : s.draft with
  | none => exact Or.inl (step_of_no_draft hdraft c)
  | some cat =>
    have hs := Store.eq_withDraft hdraft
    have hstep := step_withDraft s ⟨cat, s.counters⟩ hc
    rw [← hs] at hstep
    cases he : c.onDraft ⟨cat, s.counters⟩ with
    | error f =>
      refine Or.inl ?_
      rw [hstep, he, reply]
      exact hs.symm
    | ok r =>
      refine Or.inr ⟨_, r.2, r.1, hs, he, ?_⟩
      rw [hstep, he]
      rfl

/-- Calls that only look leave the draft as it is; for each of the others its own lemma tells the
draft that it makes, and the row that it adds or changes keeps the tables together. -/
theorem onDraft_ok {d e : Draft} (h : d.Coherent) {c : DraftCall} {a : c.Result}
    (hc : c.onDraft d = .ok (a, e)) : e.Coherent ∧ d.Evolves e := by
  have hsame : e = d → e.Coherent ∧ d.Evolves e := by
    rintro rfl
    exact ⟨h, .refl e⟩
  cases c with
  | shopByName _ => cases hc; exact hsame rfl
  | shopByOwner _ => cases hc; exact hsame rfl
  | categoryExists _ => cases hc; exact hsame rfl
  | commit => cases hc; exact hsame rfl
  | createShop name owner =>
    obtain ⟨hname, howner, -, rfl⟩ := Draft.createShop_ok hc
    exact ⟨h.addShop hname howner, .addShop h name owner⟩
  | ensureCategory k =>
    rcases Draft.ensureCategory_ok hc with ⟨-, he⟩ | ⟨hnew, rfl⟩
    · exact hsame he
    · refine ⟨h.setCategory (by simp), .setCategory ?_⟩
      intro old hold
      rw [hnew] at hold
      cases hold
  | linkCategory category shop =>
    obtain ⟨hshop, row, hrow, rfl⟩ := Draft.linkCategory_ok hc
    refine ⟨h.setCategory ?_, .setCategory ?_⟩
    · intro other hother
      rcases Id.mem_insertSorted.mp hother with rfl | hold
      · exact hshop
      · exact h.categories category row hrow other hold
    · intro old hold
      rw [hrow] at hold
      cases hold
      rfl
  | deleteListings shop =>
    obtain ⟨-, rfl⟩ := Draft.deleteListings_ok hc
    exact ⟨h.dropListings shop, .dropListings d shop⟩
  | upsertProduct name category =>
    obtain ⟨hcategory, ⟨-, he⟩ | ⟨hkey, -, rfl⟩⟩ := Draft.upsertProduct_ok hc
    · exact hsame he
    · exact ⟨h.addProduct hcategory hkey, .addProduct h name category⟩
  | insertListing l =>
    obtain ⟨hproduct, hshop, hprice, hrrc, hquantity, -, rfl⟩ := Draft.insertListing_ok hc
    exact ⟨h.addListing hproduct hshop ⟨hprice, hrrc, hquantity⟩, .addListing d l⟩
  | upsertParameter name =>
    rcases Draft.upsertParameter_ok hc with ⟨-, he⟩ | ⟨hname, -, rfl⟩
    · exact hsame he
    · exact ⟨h.addParameter hname, .addParameter h name⟩
  | insertParameter listing parameter value =>
    obtain ⟨hlisting, hparameter, -, rfl⟩ := Draft.insertParameter_ok hc
    exact ⟨h.setValue value hlisting hparameter, .setValue d listing parameter value⟩

end DraftCall

end Marketplace
