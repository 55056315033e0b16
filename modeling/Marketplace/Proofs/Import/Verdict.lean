import Mathlib.Control.Monad.Basic
import Marketplace.Proofs.Import.Smooth
set_option autoImplicit false

/-!
# Which imports are accepted

What becomes of an import is settled by the price list, the user and the catalog before anything is
written: by whose the shop of the list's name is, by whether the user has another shop, and by
whether every category is known (`Importer.Verdict`).  Once these questions are answered well,
nothing goes wrong any more.

The proof follows the program: the shop is resolved, then the categories are looked up, and each
answer is one of the questions of the verdict.  From there on the draft is one that every call can
be made on, so what follows is not a matter of cases any more.
-/

namespace Marketplace

namespace PriceList

variable {list : PriceList} {user : UserId} {c : Catalog}

/-- The shop of the list's name belongs to somebody else than the user. -/
def NamesForeign (list : PriceList) (user : UserId) (c : Catalog) : Prop :=
  ∃ id s, c.shops.get? id = some s ∧ s.name = Text.trim list.shop ∧ s.owner ≠ user

/-- There is no shop of the list's name, but the user has a shop. -/
def NamesSecond (list : PriceList) (user : UserId) (c : Catalog) : Prop :=
  (∀ id s, c.shops.get? id = some s → s.name ≠ Text.trim list.shop) ∧
    ∃ id s, c.shops.get? id = some s ∧ s.owner = user

/-- A good is of a category that neither the list declares nor the catalog has. -/
def Strays (list : PriceList) (c : Catalog) : Prop :=
  ∃ g ∈ list.goods, ¬list.Declares g.category ∧ c.categories.contains g.category = false

/-- The categories that are looked up are those that goods have and the list does not declare. -/
theorem allKnown_undeclared_iff : Importer.AllKnown list.undeclared c ↔ ¬list.Strays c := by
  constructor
  · rintro hknown ⟨g, hg, hundeclared, hunknown⟩
    have hthere := hknown _ (mem_undeclared.mpr ⟨List.mem_map_of_mem hg, hundeclared⟩)
    rw [hunknown] at hthere
    cases hthere
  · intro hstrays id hid
    obtain ⟨hmentions, hundeclared⟩ := mem_undeclared.mp hid
    obtain ⟨g, hg, rfl⟩ := List.mem_map.mp hmentions
    exact eq_true_of_ne_false fun hunknown => hstrays ⟨g, hg, hundeclared, hunknown⟩

end PriceList

namespace Importer

variable {list : PriceList} {user : UserId} {d : Draft}

/-- The outcome of an import is the one that the list, the user and the catalog decide on. -/
structure Verdict (list : PriceList) (user : UserId) (c : Catalog)
    (r : Except ImportFault ImportSummary) : Prop where
  denied : (∃ reason, r = .error (.permissionDenied reason)) ↔ list.NamesForeign user c
  conflict : (∃ reason, r = .error (.ownershipConflict reason)) ↔ list.NamesSecond user c
  invalid : (∃ reason, r = .error (.invalidArguments reason)) ↔
    ¬list.NamesForeign user c ∧ ¬list.NamesSecond user c ∧ list.Strays c
  accepted : (∃ summary, r = .ok summary) ↔
    ¬list.NamesForeign user c ∧ ¬list.NamesSecond user c ∧ ¬list.Strays c
  /-- The import does not fail for any other reason. -/
  sound : ∀ cause, r ≠ .error (.failed cause)

/-- A user whose list does not name a foreign or a second shop gets a shop. -/
theorem exists_resolveShop (hd : d.Coherent) (hforeign : ¬list.NamesForeign user d.catalog)
    (hsecond : ¬list.NamesSecond user d.catalog) : ∃ shop created d',
      (resolveShop (Text.trim list.shop) user).Smooth d (.ok (shop, created)) d' := by
  by_cases hnamed : ∃ id s, d.catalog.shops.get? id = some s ∧ s.name = Text.trim list.shop
  · obtain ⟨id, s, hs, hname⟩ := hnamed
    have howner : s.owner = user :=
      Classical.byContradiction fun hother => hforeign ⟨id, s, hs, hname, hother⟩
    exact ⟨s, false, d, resolveShop_own (hd.shopNamed?_of_get? hs hname) howner⟩
  · have hfree : ∀ id s, d.catalog.shops.get? id = some s → s.name ≠ Text.trim list.shop :=
      fun id s hs hname => hnamed ⟨id, s, hs, hname⟩
    have hnone : ∀ id s, d.catalog.shops.get? id = some s → s.owner ≠ user :=
      fun id s hs howner => hsecond ⟨hfree, id, s, hs, howner⟩
    exact ⟨_, true, _, resolveShop_new (hd.shopNames.get?_eq_none hfree)
      (hd.shopOwners.get?_eq_none hnone)⟩

/-- Whatever the draft, the storage takes every call of the preparation of an accepted list, and the
outcome is the one that is decided on. -/
theorem prepare_verdict (hd : d.Coherent) (hlist : list.Sound) (user : UserId) :
    ∃ r e, (prepare list user).Smooth d r e ∧ Verdict list user d.catalog r := by
  by_cases hforeign : list.NamesForeign user d.catalog
  · obtain ⟨id, s, hs, hname, howner⟩ := hforeign
    have hnamed := hd.shopNamed?_of_get? hs hname
    exact ⟨_, d, (resolveShop_foreign hnamed howner).bind_error _,
      { denied := iff_of_true ⟨_, rfl⟩ ⟨id, s, hs, hname, howner⟩
        conflict := iff_of_false (by simp [foreignShop]) fun h => h.1 id s hs hname
        invalid := iff_of_false (by simp [foreignShop]) fun h => h.1 ⟨id, s, hs, hname, howner⟩
        accepted := iff_of_false (by simp [foreignShop]) fun h => h.1 ⟨id, s, hs, hname, howner⟩
        sound := by simp [foreignShop] }⟩
  by_cases hsecond : list.NamesSecond user d.catalog
  · obtain ⟨hfree, id, s, hs, howner⟩ := hsecond
    have hnone : d.catalog.shopNamed? (Text.trim list.shop) = none := by
      rw [Catalog.shopNamed?, hd.shopNames.get?_eq_none hfree, Option.bind_none]
    have howned := hd.shopOf?_of_get? hs howner
    exact ⟨_, d, (resolveShop_second hnone howned).bind_error _,
      { denied := iff_of_false (by simp) hforeign
        conflict := iff_of_true ⟨_, rfl⟩ ⟨hfree, id, s, hs, howner⟩
        invalid := iff_of_false (by simp) fun h => h.2.1 ⟨hfree, id, s, hs, howner⟩
        accepted := iff_of_false (by simp) fun h => h.2.1 ⟨hfree, id, s, hs, howner⟩
        sound := by simp }⟩
  obtain ⟨shop, created, d', hresolve⟩ := exists_resolveShop hd hforeign hsecond
  by_cases hstrays : list.Strays d.catalog
  · have hunknown : ¬AllKnown list.undeclared d'.catalog := by
      unfold AllKnown
      rw [(resolved_of_does hd hresolve.does).categories]
      exact fun hknown => PriceList.allKnown_undeclared_iff.mp hknown hstrays
    obtain ⟨c, hrequire⟩ := requireCategories_unknown hunknown
    exact ⟨_, d', hresolve.bind (hrequire.bind_error _),
      { denied := iff_of_false (by simp) hforeign
        conflict := iff_of_false (by simp) hsecond
        invalid := iff_of_true ⟨_, rfl⟩ ⟨hforeign, hsecond, hstrays⟩
        accepted := iff_of_false (by simp) fun h => h.2.2 hstrays
        sound := by simp }⟩
  · obtain ⟨summary, e, hprepare⟩ :=
      exists_prepare hd hlist hresolve (PriceList.allKnown_undeclared_iff.mpr hstrays)
    exact ⟨_, e, hprepare,
      { denied := iff_of_false (by simp) hforeign
        conflict := iff_of_false (by simp) hsecond
        invalid := iff_of_false (by simp) fun h => hstrays h.2.2
        accepted := iff_of_true ⟨_, rfl⟩ ⟨hforeign, hsecond, hstrays⟩
        sound := by simp }⟩

/-- If the storage takes every call of the preparation, it takes every call of the import. -/
theorem unrefused_apply {w : World}
    (h : (prepare list user).run.Unrefused Draft.handle ⟨w.store.catalog, w.store.counters⟩) :
    (apply list user).run.Unrefused World.handle w := by
  have hmerge : (merge list user).run.Unrefused World.handle
      (w.withDraft ⟨w.store.catalog, w.store.counters⟩) := by
    rw [merge_eq, Program.bind_exceptT]
    refine (h.withDraft (edits_prepare list user) w).bind ?_
    rintro (f | summary) v hv
    · trivial
    · rw [Program.run_withDraft (edits_prepare list user)] at hv
      obtain ⟨⟨a, e⟩, -, heq⟩ := Option.map_eq_some_iff.mp hv
      cases heq
      intro r t hr
      cases hr
      exact ⟨⟨(), rfl⟩, trivial⟩
  rw [apply, inDraft_run]
  intro r t hr
  simp only [World.handle, StoreCall.step, CatalogCall.step, Store.begin?] at hr
  split at hr
  · cases hr
  · cases hr
    refine ⟨⟨(), rfl⟩, hmerge.bind ?_⟩
    rintro (f | summary) v -
    · exact fun _ _ _ => ⟨trivial, trivial⟩
    · trivial

/-- What becomes of an import of a price list that is accepted as such, whatever has happened before
in a pool: it waits as long as another import is under way, and then ends as it is decided on; the
storage refuses none of its calls. -/
theorem verdict_of_ofText {admitted : Program Unit → Prop} {P : Pool} (hP : P.Reachable admitted)
    {text : String} (hlist : PriceList.ofText text = .ok list) (user : UserId) :
    (P.world.store.draft ≠ none →
        (apply list user).run.run World.handle P.world = none) ∧
      (P.world.store.draft = none → ∃ r w, (apply list user).run.run World.handle P.world =
        some (r, w) ∧ Verdict list user P.world.store.catalog r) ∧
        (apply list user).run.Unrefused World.handle P.world := by
  have hd : Draft.Coherent ⟨P.world.store.catalog, P.world.store.counters⟩ :=
    hP.store.sound.catalog
  obtain ⟨r, e, hprepare, hverdict⟩ := prepare_verdict hd (PriceList.sound_of_ofText hlist) user
  refine ⟨fun hbusy => ?_, fun hfree => ?_, unrefused_apply hprepare.unrefused⟩
  · refine Option.eq_none_iff_forall_ne_some.mpr fun x hrun => ?_
    exact hbusy ((run_apply list user).mp hrun).1
  · exact ⟨r, _, (run_apply list user).mpr ⟨hfree, e, hprepare.run, rfl⟩, hverdict⟩

/-- A price list of a tablet, whose category it does not declare. -/
def tabletText : String :=
  "shop: Svyaznoy\ncategories: []\ngoods:\n- id: 1\n  category: 224\n  name: Tablet\n" ++
    "  price: 5\n  price_rrc: 6\n  quantity: 7\n  parameters: \x7bColour: gold\x7d\n"

/-- What it says. -/
def tabletList : PriceList :=
  ⟨"Svyaznoy", [], [⟨1, ⟨224⟩, "Tablet", "", 5, 6, 7, [("Colour", "gold")]⟩]⟩

/-- When the shop of the list's name has declared the category, the list is accepted from its owner
and not from anybody else; and it has to wait as long as the shop is still declaring it. -/
theorem verdict_of_tabletText : ∃ (P P' : Pool) (summary : ImportSummary) (f : ImportFault)
    (w w' : World), P.Reachable (fun _ => True) ∧ P'.Reachable (fun _ => True) ∧
      PriceList.ofText tabletText = .ok tabletList ∧ P.world.store.draft = none ∧
      (apply tabletList ⟨1⟩).run.run World.handle P.world = some (.ok summary, w) ∧
      Verdict tabletList ⟨1⟩ P.world.store.catalog (.ok summary) ∧
      (apply tabletList ⟨2⟩).run.run World.handle P.world = some (.error f, w') ∧
      Verdict tabletList ⟨2⟩ P.world.store.catalog (.error f) ∧
      f = foreignShop "Svyaznoy" ∧ P'.world.store.draft ≠ none ∧
      (apply tabletList ⟨1⟩).run.run World.handle P'.world = none := by
  have hlist : PriceList.ofText tabletText = .ok tabletList := by decide +kernel
  have hstart : Pool.Reachable (fun _ => True) ⟨.start ⟨0, 0⟩ 3, phoneSale.map .start⟩ :=
    .begin ⟨0, 0⟩ 3 fun p _ => trivial
  have hplay : (Pool.play (List.replicate 13 0) ⟨.start ⟨0, 0⟩ 3, phoneSale.map .start⟩).any
      (fun P => P.world.store.draft.isNone &&
        ((apply tabletList ⟨1⟩).run.run World.handle P.world).any (fun x => x.1.isOk) &&
        ((apply tabletList ⟨2⟩).run.run World.handle P.world).any fun x =>
          x.1 == .error (foreignShop "Svyaznoy")) = true := by
    decide +kernel
  have hplay' : (Pool.play (List.replicate 3 0) ⟨.start ⟨0, 0⟩ 3, phoneSale.map .start⟩).any
      (fun P => P.world.store.draft.isSome) = true := by
    decide +kernel
  obtain ⟨P, hP, hfacts⟩ := (Option.any_eq_true _ _).mp hplay
  obtain ⟨P', hP', hbusy⟩ := (Option.any_eq_true _ _).mp hplay'
  simp only [Bool.and_eq_true, Option.isNone_iff_eq_none] at hfacts
  obtain ⟨⟨hfree, hown⟩, hforeign⟩ := hfacts
  have hreach := hstart.play hP
  have hreach' := hstart.play hP'
  obtain ⟨⟨r, w⟩, hrun, hok⟩ := (Option.any_eq_true _ _).mp hown
  obtain ⟨⟨r', w'⟩, hrun', herror⟩ := (Option.any_eq_true _ _).mp hforeign
  obtain ⟨r₁, w₁, hrun₁, hverdict⟩ := (verdict_of_ofText hreach hlist ⟨1⟩).2.1 hfree
  obtain ⟨r₂, w₂, hrun₂, hverdict'⟩ := (verdict_of_ofText hreach hlist ⟨2⟩).2.1 hfree
  cases hrun.symm.trans hrun₁
  cases hrun'.symm.trans hrun₂
  have hdraft : P'.world.store.draft ≠ none := by
    rw [← Option.isSome_iff_ne_none]
    exact hbusy
  cases r with
  | error f => cases hok
  | ok summary =>
    cases eq_of_beq herror
    exact ⟨P, P', summary, _, w, w', hreach, hreach', hlist, hfree, hrun, hverdict, hrun',
      hverdict', rfl, hdraft, (verdict_of_ofText hreach' hlist ⟨1⟩).1 hdraft⟩

end Importer

end Marketplace
