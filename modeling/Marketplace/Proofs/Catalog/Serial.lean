import Marketplace.Proofs.Catalog.Writes
import Marketplace.Proofs.Storage.Pool
set_option autoImplicit false

/-!
# The catalog as a serial history

An import works on a copy of the catalog and publishes the whole copy, so whatever else is written
in between would be undone.  Nothing is, for there is one draft at a time and whoever else wants to
write waits: the published catalog is always what the complete writes make of the empty catalog, one
after the other (`Pool.Past.catalog_serializable`).

The proof keeps an invariant, `Pool.Serial`, between the store and what the log tells of writes.
What happens to it is one lemma for each kind of event: an import begins, goes on, is committed or
is given up, a shop is opened or closed, or nothing happens to the catalog.  `Serial.call` sorts the
calls into these kinds.
-/

namespace Marketplace

/-- A call that does not change the catalog leaves all three of its parts alone: what is published,
the draft and the counters. -/
theorem Store.Effect.same_catalog {s t : Store} {c : Call} {m : Option Remainder}
    (h : s.Effect c m t) (hc : c.changesCatalog = false) :
    t.catalog = s.catalog ∧ t.draft = s.draft ∧ t.counters = s.counters ∧ m ≠ some .cascade := by
  cases h with
  | insert _ => exact ⟨rfl, rfl, rfl, nofun⟩
  | beside _ _ _ hm => exact ⟨rfl, rfl, rfl, hm⟩
  | _ => cases hc

/-! ## Answers -/

/-- The world in which this is the catalog and no import is under way.  Whoever reads is compared
with this world, so that the import under way cannot be seen. -/
def World.settled (w : World) (c : Catalog) : World :=
  { w with store := { w.store with catalog := c, draft := none } }

/-- Only who works on the draft sees anything of it.  The calls that look at the draft from outside
wait while there is one, so if they are answered they see none here either. -/
theorem World.act_settled {w w' : World} {c : Call} {r : c.Reply} {m : Option Remainder}
    (hact : w.act c = some (r, w', m)) (hc : ∀ d, c ≠ .store (.draft d)) :
    ∃ v, (w.settled w.store.catalog).act c = some (r, v, m) := by
  cases c with
  | store c =>
    cases c with
    | catalog c =>
      simp only [act, handle, StoreCall.step, Option.map_map, Option.map_eq_some_iff] at hact
      obtain ⟨⟨r, t⟩, hstep, heq⟩ := hact
      cases heq
      have hsettled : ∃ u, c.step (w.settled w.store.catalog).store = some (r, u) := by
        cases c with
        | begin => exact ⟨_, rfl⟩
        | setAccepting shop accepts =>
          simp only [CatalogCall.step, Store.setAccepting?] at hstep
          split at hstep
          · cases hstep
          · cases hstep
            exact ⟨_, rfl⟩
        | _ => cases hstep; exact ⟨_, rfl⟩
      obtain ⟨u, hu⟩ := hsettled
      refine ⟨{ w.settled w.store.catalog with store := u }, ?_⟩
      simp only [act, handle, StoreCall.step, hu, Option.map_some]
      rfl
    | draft d => exact absurd rfl (hc d)
    | orders c =>
      cases hact
      have hsettled : (c.step (w.settled w.store.catalog).store w.clock).1 =
          (c.step w.store w.clock).1 := by
        cases c <;> simp only [OrderCall.step, Store.onBook, Store.tryBook, settled] <;>
          split <;> rfl
      refine ⟨{ w.settled w.store.catalog with
        store := (c.step (w.settled w.store.catalog).store w.clock).2 }, ?_⟩
      rw [← hsettled]
      rfl
    | contacts c => cases c <;> cases hact <;> exact ⟨_, rfl⟩
  | lock buyer =>
    simp only [act, handle] at hact
    split at hact
    · cases hact
    · rename_i hfree
      cases hact
      exact ⟨_, by simp only [act, handle, settled, hfree]; rfl⟩
  | _ => cases hact; exact ⟨_, rfl⟩

/-! ## The invariant -/

/-- The activity has an import under way that it has not committed.  Between the two halves of a
commit it still drafts, but its catalog is published already. -/
def Activity.Importing (a : Activity) : Prop := a.drafting = true ∧ a.remainder ≠ some .cascade

/-- Most calls neither begin an import nor end one. -/
theorem Activity.importing_after {a : Activity} {c : Call} {p : Program Unit} {m : Option Remainder}
    (hwhole : a.remainder = none) (hbegin : c ≠ .store (.catalog .begin)) (hdiscard : c ≠ .discard)
    (hm : m ≠ some .cascade) : (a.after c p m).Importing ↔ a.Importing := by
  have hdrafting : a.draftingAfter c = a.drafting := by
    unfold draftingAfter
    split
    · exact absurd rfl hbegin
    · exact absurd rfl hdiscard
    · rfl
  simp [Importing, after, hdrafting, hm, hwhole]

namespace Pool

variable {admitted : Program Unit → Prop} {P : Pool} {h : CatalogHistory} {log : List Event}
  {i j : Nat} {a a' : Activity} {w' : World} {work : ImportWork}

/-- The store is what the history says.  The history has one import under way at most, at the place
of an activity, and the fields `importing` and `committing` say that the two agree on who that
is. -/
structure Serial (h : CatalogHistory) (P : Pool) : Prop where
  published : P.world.store.catalog = h.catalog
  counters : P.world.store.counters = h.counters
  draft : ∀ i work, h.underWay = some (i, work) →
    P.world.store.draft = some (work.draft h.catalog).catalog
  importing : ∀ i, (∃ work, h.underWay = some (i, work)) ↔
    ∃ a, P.activities[i]? = some a ∧ a.Importing
  committing : ∀ a ∈ P.activities, a.remainder = some .cascade → h.underWay = none
  flagged : Catalog.Flagged h.writes

theorem exists_importing_moved (ha : P.activities[i]? = some a) :
    (∃ x, (P.moved i w' a').activities[j]? = some x ∧ x.Importing) ↔
      (j = i ∧ a'.Importing) ∨ (j ≠ i ∧ ∃ x, P.activities[j]? = some x ∧ x.Importing) := by
  by_cases hj : j = i
  · subst hj
    simp [getElem?_moved_self ha]
  · simp [getElem?_moved_ne hj, hj]

namespace Serial

/-- The import that somebody works on is the one under way, with some work done. -/
theorem exists_work (hs : P.Serial h) (ha : P.activities[i]? = some a) (hi : a.Importing) :
    ∃ work, h.underWay = some (i, work) :=
  (hs.importing i).mpr ⟨a, ha, hi⟩

/-- Where there is no draft no import is under way, since one under way has its work as the
draft. -/
theorem none_underWay (hs : P.Serial h) (hdraft : P.world.store.draft = none) :
    h.underWay = none := by
  cases hwork : h.underWay with
  | none => rfl
  | some u =>
    rw [hs.draft u.1 u.2 hwork] at hdraft
    cases hdraft

/-- Nothing happens to the catalog and to an import under way.  Most events are of this kind: calls
of orders, jobs and mail, and the second halves of calls. -/
theorem same (hs : P.Serial h) (ha : P.activities[i]? = some a)
    (hcatalog : w'.store.catalog = P.world.store.catalog)
    (hdraft : h.underWay = none ∨ w'.store.draft = P.world.store.draft)
    (hcounters : w'.store.counters = P.world.store.counters)
    (himporting : a'.Importing ↔ a.Importing)
    (hcommitting : a'.remainder = some .cascade → a.remainder = some .cascade) :
    (P.moved i w' a').Serial h where
  published := hcatalog.trans hs.published
  counters := hcounters.trans hs.counters
  draft j work hwork := by
    rcases hdraft with hnone | hsame
    · rw [hnone] at hwork
      cases hwork
    · exact hsame.trans (hs.draft j work hwork)
  importing j := by
    rw [exists_importing_moved ha, himporting, hs.importing]
    by_cases hj : j = i
    · subst hj
      simp [ha]
    · simp [hj]
  committing x hx hm := by
    rcases List.mem_or_eq_of_mem_set hx with hold | rfl
    · exact hs.committing x hold hm
    · exact hs.committing a (List.mem_of_getElem? ha) (hcommitting hm)
  flagged := hs.flagged

/-- An import begins.  There was no draft, so none was under way, and its work is empty: the draft
is the published catalog. -/
theorem begun (hs : P.Serial h) (horderly : P.Orderly) (ha : P.activities[i]? = some a)
    (hdraft : P.world.store.draft = none)
    (hw : w'.store = { P.world.store with draft := some P.world.store.catalog })
    (ha' : a'.Importing) :
    (P.moved i w' a').Serial { h with underWay := some (i, ⟨h.given, []⟩) } where
  published := by
    rw [moved, hw]
    exact hs.published
  counters := by
    have hgiven : h.counters = h.given := by
      rw [CatalogHistory.counters, hs.none_underWay hdraft]
    rw [moved, hw]
    exact hs.counters.trans hgiven
  draft j work hwork := by
    cases hwork
    rw [moved, hw]
    exact congrArg some hs.published
  importing j := by
    rw [exists_importing_moved ha, ← hs.importing, hs.none_underWay hdraft]
    constructor
    · rintro ⟨work, hwork⟩
      cases hwork
      exact Or.inl ⟨rfl, ha'⟩
    · rintro (⟨rfl, -⟩ | ⟨-, work, hwork⟩)
      · exact ⟨_, rfl⟩
      · cases hwork
  committing x hx hm := by
    rcases List.mem_or_eq_of_mem_set hx with hold | rfl
    · exact absurd hm (horderly.quiet hdraft x hold)
    · exact absurd hm ha'.2
  flagged := hs.flagged

/-- A shop is opened or closed for orders.  As no import is under way this is a whole write, behind
all those before it. -/
theorem accepting {shop : ShopId} {accepts : Bool} (hs : P.Serial h)
    (ha : P.activities[i]? = some a) (hdraft : P.world.store.draft = none)
    (hcatalog : w'.store.catalog =
      CatalogWrite.apply P.world.store.catalog (.accepting shop accepts))
    (hcounters : w'.store.counters = P.world.store.counters)
    (himporting : a'.Importing ↔ a.Importing) :
    (P.moved i w' a').Serial { h with writes := h.writes ++ [.accepting shop accepts] } where
  published := by
    have hserial := Catalog.serial_snoc h.writes (.accepting shop accepts)
    rw [moved, hcatalog, hs.published]
    exact hserial.symm
  counters := by
    have hbefore := hs.counters
    rw [CatalogHistory.counters, hs.none_underWay hdraft] at hbefore
    rw [moved, hcounters, hbefore, CatalogHistory.counters, hs.none_underWay hdraft]
  draft j work hwork := by
    rw [hs.none_underWay hdraft] at hwork
    cases hwork
  importing j := by
    rw [exists_importing_moved ha, himporting, hs.importing]
    by_cases hj : j = i
    · subst hj
      simp [ha]
    · simp [hj]
  committing _ _ _ := hs.none_underWay hdraft
  flagged := hs.flagged.accepting shop accepts

/-- The import under way goes a call further.  Its work grows by the call, and the draft is what the
work makes of the published catalog, which nobody has changed in between. -/
theorem edited {d : DraftCall} (hs : P.Serial h) (ha : P.activities[i]? = some a)
    (hwork : h.underWay = some (i, work))
    (hw : w'.store = P.world.store.withDraft (d.edited (work.draft h.catalog)))
    (ha' : a'.Importing) : (P.moved i w' a').Serial (h.edit d) := by
  have hedit : h.edit d =
      { h with underWay := some (i, ⟨work.given, work.calls ++ [d]⟩) } := by
    rw [CatalogHistory.edit, hwork]
    rfl
  have hdraft : (ImportWork.mk work.given (work.calls ++ [d])).draft h.catalog =
      d.edited (work.draft h.catalog) :=
    List.foldl_append
  rw [hedit]
  refine ⟨?_, ?_, fun j more hmore => ?_, fun j => ?_, fun x hx hm => ?_, hs.flagged⟩
  · rw [moved, hw]
    exact hs.published
  · rw [moved, hw]
    exact (congrArg Draft.counters hdraft).symm
  · cases hmore
    rw [moved, hw]
    exact (congrArg (fun d => some d.catalog) hdraft).symm
  · rw [exists_importing_moved ha, ← hs.importing, hwork]
    constructor
    · rintro ⟨more, hmore⟩
      cases hmore
      exact Or.inl ⟨rfl, ha'⟩
    · rintro (⟨rfl, -⟩ | ⟨hj, more, hmore⟩)
      · exact ⟨_, rfl⟩
      · cases hmore
        exact absurd rfl hj
  · rcases List.mem_or_eq_of_mem_set hx with hold | rfl
    · rw [hs.committing x hold hm] at hwork
      cases hwork
    · exact absurd hm ha'.2

/-- Who does the import under way ends it, and nobody has an import under way any more. -/
theorem none_importing (hs : P.Serial h) (ha : P.activities[i]? = some a)
    (hwork : h.underWay = some (i, work)) (ha' : ¬a'.Importing) (j : Nat) :
    (∃ work, (none : Option (Nat × ImportWork)) = some (j, work)) ↔
      ∃ x, (P.moved i w' a').activities[j]? = some x ∧ x.Importing := by
  rw [exists_importing_moved ha, ← hs.importing, hwork]
  constructor
  · rintro ⟨_, hnone⟩
    cases hnone
  · rintro (⟨-, himporting⟩ | ⟨hj, more, hmore⟩)
    · exact absurd himporting ha'
    · cases hmore
      exact absurd rfl hj

/-- The import under way is committed.  What is published is then its work on the catalog before,
which is the next write of the history. -/
theorem committed (hs : P.Serial h) (hstore : P.world.store.Reachable)
    (ha : P.activities[i]? = some a) (hwork : h.underWay = some (i, work))
    (hw : w'.store = P.world.store.publish) (ha' : ¬a'.Importing) :
    (P.moved i w' a').Serial (h.commit work) := by
  have hdraft := hs.draft i work hwork
  have hpublish : P.world.store.publish.catalog = (work.draft h.catalog).catalog := by
    simp only [Store.publish, hdraft]
  refine ⟨?_, ?_, fun _ _ hnone => (by cases hnone), hs.none_importing ha hwork ha',
    fun _ _ _ => rfl, hs.flagged.imported ?_⟩
  · have hserial := Catalog.serial_snoc h.writes (.imported work)
    rw [moved, hw, hpublish]
    exact hserial.symm
  · have hcounters : P.world.store.publish.counters = P.world.store.counters := by
      simp only [Store.publish, hdraft]
    rw [moved, hw, hcounters]
    exact hs.counters
  · obtain ⟨n, -, hevolves⟩ := hstore.sound.draft _ hdraft
    have hkeeps := hevolves.shops
    rwa [hs.published] at hkeeps

/-- The import under way is given up.  The catalog stays, but numbers that it has taken are not
given again, so the history keeps the counters. -/
theorem abandoned (hs : P.Serial h) (ha : P.activities[i]? = some a)
    (hwork : h.underWay = some (i, work)) (hw : w'.store = P.world.store.discard)
    (ha' : ¬a'.Importing) : (P.moved i w' a').Serial h.close := by
  refine ⟨?_, ?_, nofun, hs.none_importing ha hwork ha', fun _ _ _ => rfl, hs.flagged⟩
  · rw [moved, hw]
    exact hs.published
  · rw [moved, hw]
    exact hs.counters

/-- The import under way has its work as the draft. -/
theorem eq_withDraft (hs : P.Serial h) (hwork : h.underWay = some (i, work)) :
    P.world.store = P.world.store.withDraft (work.draft h.catalog) := by
  have hcounters := hs.counters
  rw [CatalogHistory.counters, hwork] at hcounters
  have hstore := Store.eq_withDraft (hs.draft i work hwork)
  rwa [hcounters] at hstore

/-- An import sees its own work, and what it does is added to it.  Nothing else is seen: the answer
is a function of the work and of the published catalog. -/
theorem act_draft {d : DraftCall} {r : Call.Reply (.store (.draft d))} {m : Option Remainder}
    (hs : P.Serial h) (hwork : h.underWay = some (i, work))
    (hact : P.world.act (.store (.draft d)) = some (r, w', m)) :
    r = (d.onDraft (work.draft h.catalog)).map Prod.fst ∧
      ((d = .commit ∧ w'.store = P.world.store.publish ∧ m = some .cascade) ∨
        (d ≠ .commit ∧ w'.store = P.world.store.withDraft (d.edited (work.draft h.catalog)) ∧
          m = none)) := by
  by_cases hd : d = .commit
  · subst hd
    simp only [World.act, hs.draft i work hwork] at hact
    cases hact
    exact ⟨rfl, Or.inl ⟨rfl, rfl, rfl⟩⟩
  · have hstep := DraftCall.step_withDraft_eq P.world.store (work.draft h.catalog) hd
    rw [← hs.eq_withDraft hwork] at hstep
    have hplain : P.world.act (.store (.draft d)) =
        some ((d.step P.world.store).1,
          { P.world with store := (d.step P.world.store).2 }, none) := by
      cases d with
      | commit => exact absurd rfl hd
      | _ => rfl
    rw [hplain, hstep] at hact
    cases hact
    exact ⟨rfl, Or.inr ⟨hd, rfl, rfl⟩⟩

/-- A call leads on as the history says.  The cases are those of `Store.Effect`, and each is one of
the kinds of events above. -/
theorem call {c : Call} {next : c.Reply → Program Unit} {r : c.Reply} {m : Option Remainder}
    (hs : P.Serial h) (hP : P.Reachable admitted) (ha : P.activities[i]? = some a)
    (hwhole : a.remainder = none) (hallows : a.allows c = true)
    (hact : P.world.act c = some (r, w', m)) :
    (P.moved i w' (a.after c (next r) m)).Serial (h.note ⟨i, .call c r⟩) := by
  have heffect := Store.Effect.of_act hact
  have himporting : a.drafting = true → a.Importing :=
    fun hdrafting => ⟨hdrafting, by simp [hwhole]⟩
  cases hc : c.changesCatalog with
  | false =>
    obtain ⟨hcatalog, hdraft, hcounters, hm⟩ := heffect.same_catalog hc
    rw [CatalogHistory.note_of_not_changesCatalog hc]
    refine hs.same ha hcatalog (Or.inr hdraft) hcounters (Activity.importing_after hwhole ?_ ?_ hm)
      (fun hm' => absurd hm' hm)
    · rintro rfl
      cases hc
    · rintro rfl
      cases hc
  | true =>
    cases c with
    | store c =>
      cases c with
      | catalog c =>
        cases c with
        | begin =>
          generalize hw : w'.store = t at heffect
          cases heffect with
          | begin hdraft => exact hs.begun hP.orderly ha hdraft hw ⟨rfl, by simp [Activity.after]⟩
          | beside _ hbegin => exact absurd rfl hbegin
        | setAccepting shop accepts =>
          simp only [World.act, World.handle, StoreCall.step, CatalogCall.step,
            Store.setAccepting?] at hact
          cases hdraft : P.world.store.draft with
          | some c =>
            rw [hdraft] at hact
            cases hact
          | none =>
            rw [hdraft] at hact
            cases hact
            exact hs.accepting ha hdraft rfl rfl
              (Activity.importing_after hwhole (by simp) (by simp) (by simp))
        | _ => cases hc
      | draft d =>
        obtain ⟨work, hwork⟩ := hs.exists_work ha (himporting hallows)
        obtain ⟨-, ⟨rfl, hw, rfl⟩ | ⟨hd, hw, rfl⟩⟩ := hs.act_draft hwork hact
        · rw [CatalogHistory.note_commit hwork]
          exact hs.committed hP.store ha hwork hw fun hi => hi.2 rfl
        · rw [CatalogHistory.note_edit hd]
          exact hs.edited ha hwork hw ⟨hallows, by simp [Activity.after]⟩
      | _ => cases hc
    | discard =>
      obtain ⟨work, hwork⟩ := hs.exists_work ha (himporting hallows)
      cases hact
      rw [CatalogHistory.note_discard hwork]
      exact hs.abandoned ha hwork rfl fun hi => by cases hi.1
    | _ => cases hc

/-- So does the second half of a call: a commit's takes away what is not part of the catalog, for
items of orders are none of it. -/
theorem finish {m : Remainder} (hs : P.Serial h) (ha : P.activities[i]? = some a)
    (hhalf : a.remainder = some m) : (P.moved i (m.finish P.world) (a.finished m)).Serial h := by
  cases m with
  | cascade =>
    have hnone := hs.committing a (List.mem_of_getElem? ha) hhalf
    refine hs.same ha rfl (Or.inl hnone) rfl ?_ nofun
    simp [Activity.Importing, Activity.finished, hhalf]
  | clear doomed =>
    refine hs.same ha rfl (Or.inr rfl) rfl ?_ nofun
    simp [Activity.Importing, Activity.finished, hhalf]

/-- Whoever is dropped gives an import up.  If it had none, its end is no event of the catalog. -/
theorem drop (hs : P.Serial h) (ha : P.activities[i]? = some a) (hwhole : a.remainder = none) :
    (P.moved i (a.release P.world) .ended).Serial (h.note ⟨i, .drop⟩) := by
  cases hdrafting : a.drafting with
  | true =>
    obtain ⟨work, hwork⟩ := hs.exists_work ha ⟨hdrafting, by simp [hwhole]⟩
    rw [CatalogHistory.note_drop hwork]
    exact hs.abandoned ha hwork (by simp [Activity.release, hdrafting]) fun hi => by cases hi.1
  | false =>
    have hidle : ∀ work, h.underWay ≠ some (i, work) := by
      intro work hwork
      obtain ⟨x, hx, himporting, -⟩ := (hs.importing i).mp ⟨work, hwork⟩
      rw [ha] at hx
      cases hx
      rw [hdrafting] at himporting
      cases himporting
    have hstore : (a.release P.world).store = P.world.store := by
      simp [Activity.release, hdrafting]
    rw [CatalogHistory.note_drop_of_ne hidle]
    refine hs.same ha ?_ (Or.inr ?_) ?_ ?_ fun hcascade => by cases hcascade
    · rw [hstore]
    · rw [hstore]
    · rw [hstore]
    · simp [Activity.Importing, Activity.ended, Activity.start, hdrafting]

/-- So does every step of an activity. -/
theorem deed {d : Deed} (hs : P.Serial h) (hP : P.Reachable admitted)
    (ha : P.activities[i]? = some a) (hd : a.Does P.world d w' a') :
    (P.moved i w' a').Serial (h.note ⟨i, d⟩) := by
  cases hd with
  | call _ hwhole hallows hact => exact hs.call hP ha hwhole hallows hact
  | finish hhalf => exact hs.finish ha hhalf
  | drop hwhole => exact hs.drop ha hwhole

end Serial

/-- The store is what its past says, by induction on the past. -/
theorem Past.serial (h : P.Past admitted log) : P.Serial (.of log) := by
  induction h with
  | start clock retention =>
    exact ⟨rfl, rfl, nofun, by simp [CatalogHistory.of, CatalogHistory.start], by simp, .nil⟩
  | @begin log P p _ _ ih =>
    refine ⟨ih.published, ih.counters, ih.draft, fun i => ?_, fun x hx hm => ?_, ih.flagged⟩
    · rw [ih.importing]
      constructor
      · rintro ⟨a, ha, himporting⟩
        exact ⟨a, getElem?_begun.mpr (Or.inl ha), himporting⟩
      · rintro ⟨a, ha, himporting⟩
        rcases getElem?_begun.mp ha with hold | ⟨-, rfl⟩
        · exact ⟨a, hold, himporting⟩
        · cases himporting.1
    · rcases List.mem_append.mp hx with hx | hx
      · exact ih.committing x hx hm
      · rw [List.mem_singleton.mp hx] at hm
        cases hm
  | environment _ clock files ih =>
    exact ⟨ih.published, ih.counters, ih.draft, ih.importing, ih.committing, ih.flagged⟩
  | deed hbefore ha hd ih =>
    rw [CatalogHistory.of_snoc]
    exact ih.deed hbefore.reachable ha hd

/-- However imports and other calls are interleaved, the published catalog is what the complete
writes make of the empty one, in the order in which they were completed.  What anybody reads is what
there would be to read without the import under way; an import sees its own work, done on the
published catalog alone, and nothing else.  No import takes back what a shop has been set to before
it was committed. -/
theorem Past.catalog_serializable (h : P.Past admitted log) :
    P.world.store.catalog = .serial (CatalogHistory.of log).writes ∧
      (∀ (i : Nat) (a a' : Activity) c r w', P.activities[i]? = some a →
        a.Does P.world (.call c r) w' a' → (∀ d, c ≠ .store (.draft d)) → ∃ v m,
          (P.world.settled (.serial (CatalogHistory.of log).writes)).act c = some (r, v, m)) ∧
      (∀ (i : Nat) (a a' : Activity) d r w', P.activities[i]? = some a →
        a.Does P.world (.call (.store (.draft d)) r) w' a' → ∃ work,
          (CatalogHistory.of log).underWay = some (i, work) ∧
            r = (d.onDraft (work.draft (.serial (CatalogHistory.of log).writes))).map Prod.fst) ∧
      Catalog.Flagged (CatalogHistory.of log).writes := by
  have hserial := h.serial
  refine ⟨hserial.published, ?_, ?_, hserial.flagged⟩
  · intro i a a' c r w' _ hd hc
    cases hd with
    | call _ _ _ hact =>
      obtain ⟨v, hv⟩ := World.act_settled hact hc
      rw [hserial.published] at hv
      exact ⟨v, _, hv⟩
  · intro i a a' d r w' ha hd
    cases hd with
    | call _ hwhole hallows hact =>
      obtain ⟨work, hwork⟩ := hserial.exists_work ha ⟨hallows, by simp [hwhole]⟩
      exact ⟨work, hwork, (hserial.act_draft hwork hact).1⟩

/-- An import of a shop that is committed, one that is given up, and a shop that is closed. -/
def shopTrade : List (Program Unit) :=
  [importing "Acme" ⟨1⟩ true,
    .call (.store (.catalog (.setAccepting ⟨1⟩ false))) fun _ => .done (),
    importing "Gamma" ⟨2⟩ false, importing "Beta" ⟨2⟩ true]
where
  importing (name : String) (owner : UserId) (committed : Bool) : Program Unit :=
    .call (.store (.catalog .begin)) fun _ =>
      .call (.store (.draft (.createShop name owner))) fun _ =>
        if committed then .call (.store (.draft .commit)) fun _ => .done () else .done ()

/-- Of an import that is given up only the number is missing that it has taken for a shop.  A shop
that has been closed stays closed when the next import is committed. -/
theorem Past.catalog_serializable_in_shopTrade : ∃ (log : List Event) (P : Pool),
    P.Past (fun _ => True) log ∧ (CatalogHistory.of log).writes.length = 3 ∧
      P.world.store.catalog.shops.values = [⟨⟨1⟩, "Acme", ⟨1⟩, none, false⟩,
        ⟨⟨3⟩, "Beta", ⟨2⟩, none, true⟩] ∧
      P.world.store.catalog = .serial (CatalogHistory.of log).writes := by
  have hrecord : (Pool.record [0, 0, 0, 0, 1, 2, 2, 2, 3, 3, 3, 3]
      ⟨.start ⟨0, 0⟩ 3, shopTrade.map .start⟩).any (fun r =>
        (CatalogHistory.of r.1).writes.length == 3 &&
          r.2.world.store.catalog.shops.values == [⟨⟨1⟩, "Acme", ⟨1⟩, none, false⟩,
            ⟨⟨3⟩, "Beta", ⟨2⟩, none, true⟩]) = true := by
    decide +kernel
  simp only [Option.any_eq_true, Bool.and_eq_true, beq_iff_eq] at hrecord
  obtain ⟨⟨log, P⟩, hrecord, hwrites, hshops⟩ := hrecord
  have hstart : Past (fun _ => True) [] ⟨.start ⟨0, 0⟩ 3, shopTrade.map .start⟩ :=
    (Past.start ⟨0, 0⟩ 3).begin_all fun p (_ : p ∈ shopTrade) => trivial
  have hpast := hstart.record hrecord
  exact ⟨log, P, hpast, hwrites, hshops, hpast.catalog_serializable.1⟩

end Pool

end Marketplace
