import Marketplace.Proofs.Storage.Effect
set_option autoImplicit false

/-!
# The store under programs that run among others

Whatever programs run, and in whatever order they make their calls, the store is a reachable one,
the draft is that of one activity, and the order book is consistent.  As long as no commit is
between its two halves, the listing of every order item is there.

What is known of stores by themselves is carried over here once for all
(`Reachable.store_invariant`).  What remains is about calls that have two halves: between them the
store is one that no single call would leave, and `Pool.Quiet` says when that is not so.
-/

namespace Marketplace

/-! ## One step of an activity -/

/-- What a call does to the store is one thing that happens to it. -/
theorem Store.Effect.step {s t : Store} {c : Call} {m : Option Remainder} (h : s.Effect c m t) :
    s.Step t := by
  cases h with
  | begin hdraft =>
    refine .catalog (c := .begin) (r := ()) ?_
    simp [CatalogCall.step, Store.begin?, hdraft]
  | discard => exact .discard
  | @accepting shop accepts hdraft =>
    have hstep : (CatalogCall.setAccepting shop accepts).step s = s.setAccepting? shop accepts :=
      rfl
    simp only [Store.setAccepting?, hdraft] at hstep
    rw [← hdraft] at hstep
    exact .catalog hstep
  | @edit c d e a hc hs hedit =>
    have hstep := DraftCall.step_withDraft s d hc
    rw [← hs, hedit] at hstep
    have hdraft := Store.Step.draft (s := s) c
    rwa [hstep] at hdraft
  | @publish c hdraft =>
    have hpublish := Store.Step.publish (s := s)
    simpa only [Store.publish, hdraft] using hpublish
  | insert hi => exact .beside _ _
  | beside hb => exact .beside _ _

namespace Activity.Step

variable {w w' : World} {a a' : Activity}

/-- What every step of stores keeps, every step of activities keeps.  A second half and the end of
an activity that is dropped are steps of the store too. -/
theorem store_invariant {I : Store → Prop} (hI : ∀ s t, I s → s.Step t → I t)
    (h : a.Step w w' a') (hw : I w.store) : I w'.store := by
  cases h with
  | call _ _ _ hact => exact hI _ _ hw (Store.Effect.of_act hact).step
  | @finish m _ =>
    cases m with
    | cascade => exact hI _ _ (hI _ _ hw (.beside _ _)) .discard
    | clear doomed => exact hI _ _ hw (.beside _ _)
  | drop _ =>
    simp only [release]
    split
    · exact hI _ _ hw .discard
    · exact hw

/-- Only the first half of a commit changes the published listings.  All other steps leave them
alone, so that items cannot lose their listings in any other way. -/
theorem listings_eq (h : a.Step w w' a') (hm : a'.remainder ≠ some .cascade) :
    w'.store.catalog.listings = w.store.catalog.listings := by
  cases h with
  | call _ _ _ hact =>
    have heffect := Store.Effect.of_act hact
    generalize w'.store = t at heffect ⊢
    cases heffect with
    | publish _ => exact absurd rfl hm
    | _ => rfl
  | @finish m _ =>
    cases m <;> rfl
  | drop _ =>
    simp only [release]
    split <;> rfl

/-- An item is added by the call for it, and by nothing else. -/
theorem book_cases (h : a.Step w w' a') :
    w.store.book.Follows w'.store.book ∨ ∃ order listing shop quantity next i,
      a.program = .call (.store (.orders (.insertItem order listing shop quantity))) next ∧
        w.store.book.insertItem w.store.catalog.listings.contains order listing shop quantity =
          .ok (i, w'.store.book) := by
  cases h with
  | call hprogram _ _ hact =>
    have heffect := Store.Effect.of_act hact
    generalize w'.store = t at heffect ⊢
    cases heffect with
    | insert hi => exact Or.inr ⟨_, _, _, _, _, _, hprogram, hi⟩
    | beside hb => exact Or.inl hb
    | _ => exact Or.inl (.refl _)
  | @finish m _ =>
    cases m with
    | cascade => exact Or.inl (.dropUnlisted _ _)
    | clear doomed => exact Or.inl (.clearContacts _ _)
  | drop _ =>
    refine Or.inl ?_
    simp only [release]
    split <;> exact .refl _

/-- A step keeps the book consistent, if an item that it adds is good.  What good means is left to
those who use this: they know more of the activity that adds the item. -/
theorem consistent {good : ListingId → ShopId → Prop} (h : a.Step w w' a')
    (hb : w.store.book.Consistent good)
    (hinsert : ∀ order listing shop quantity next,
      a.program = .call (.store (.orders (.insertItem order listing shop quantity))) next →
        w.store.catalog.listings.contains listing = true → good listing shop) :
    w'.store.book.Consistent good := by
  rcases h.book_cases with hfollows | ⟨order, listing, shop, quantity, next, i, hprogram, hi⟩
  · exact hb.follows hfollows
  · obtain ⟨-, -, hlisted, -⟩ := OrderBook.insertItem_ok hi
    exact hb.insertItem hi (hinsert _ _ _ _ _ hprogram hlisted)

/-- An activity that is between the halves of a commit works on the draft. -/
theorem cascade_drafting (h : a.Step w w' a') (hm : a'.remainder = some .cascade) :
    a'.drafting = true := by
  cases h with
  | call _ _ hallows hact =>
    have heffect := Store.Effect.of_act hact
    generalize w'.store = t at heffect
    simp only [after] at hm
    subst hm
    cases heffect with
    | publish _ => exact hallows
    | beside _ _ _ hm => exact absurd rfl hm
  | @finish m _ =>
    cases m <;> cases hm
  | drop _ => cases hm

/-- Either nothing happens to the draft and to who works on it, or the activity gets the only draft
there is, or it gives its own back.  In each case the number of those who draft changes as the draft
does, and this is all that the invariant needs. -/
theorem draft_cases (h : a.Step w w' a')
    (hdraft : a.drafting = true → w.store.draft.isSome = true)
    (hcascade : a.remainder = some .cascade → a.drafting = true) :
    (a'.drafting = a.drafting ∧ w'.store.draft.isSome = w.store.draft.isSome) ∨
      (a.drafting = false ∧ a'.drafting = true ∧ w.store.draft = none ∧
        w'.store.draft.isSome = true) ∨
      (a.drafting = true ∧ a'.drafting = false ∧ w'.store.draft = none) := by
  cases h with
  | call _ _ hallows hact =>
    have heffect := Store.Effect.of_act hact
    generalize w'.store = t at heffect ⊢
    cases heffect with
    | begin hnone =>
      refine Or.inr (Or.inl ⟨?_, rfl, hnone, rfl⟩)
      rw [hnone] at hdraft
      simpa using hdraft
    | discard => exact Or.inr (Or.inr ⟨hallows, rfl, rfl⟩)
    | accepting _ => exact Or.inl ⟨rfl, rfl⟩
    | edit _ hs _ =>
      exact Or.inl ⟨rfl, by rw [hs]; rfl⟩
    | publish _ => exact Or.inl ⟨rfl, rfl⟩
    | insert _ => exact Or.inl ⟨rfl, rfl⟩
    | beside _ hbegin hdiscard _ =>
      refine Or.inl ⟨?_, rfl⟩
      simp only [after, draftingAfter]
  | @finish m hhalf =>
    cases m with
    | cascade => exact Or.inr (Or.inr ⟨hcascade hhalf, rfl, rfl⟩)
    | clear doomed => exact Or.inl ⟨rfl, rfl⟩
  | drop _ =>
    simp only [release]
    cases ha : a.drafting with
    | true => exact Or.inr (Or.inr ⟨rfl, rfl, rfl⟩)
    | false => exact Or.inl ⟨rfl, rfl⟩

end Activity.Step

/-! ## All that happens in a pool -/

namespace Pool

variable {admitted : Program Unit → Prop} {P Q : Pool}

/-- What every step of stores keeps holds of the store whatever has happened. -/
theorem Reachable.store_invariant {I : Store → Prop} (hempty : I .empty)
    (hI : ∀ s t, I s → s.Step t → I t) (h : P.Reachable admitted) : I P.world.store := by
  induction h with
  | start clock retention => exact hempty
  | step _ hst ih =>
    cases hst with
    | start _ => exact ih
    | move as bs ha => exact ha.store_invariant hI ih
    | environment clock files => exact ih

/-- The store of a pool is one that calls lead to. -/
theorem Reachable.store (h : P.Reachable admitted) : P.world.store.Reachable :=
  h.store_invariant .empty fun _ _ hs hst => hs.step hst

namespace Orderly

theorem no_draft {w : World} {as : List Activity} (h : Orderly ⟨w, as⟩) {a : Activity}
    (ha : a ∈ as) (hw : w.store.draft = none) : a.drafting = false := by
  have hnone := h.drafting
  simp only [hw, Option.isSome_none, Bool.false_eq_true, if_false, List.countP_eq_zero] at hnone
  exact eq_false_of_ne_true (hnone a ha)

/-- One draft at most, and it is somebody's: the three cases keep the count. -/
theorem move {w w' : World} {as bs : List Activity} {a a' : Activity}
    (h : Orderly ⟨w, as ++ a :: bs⟩) (ha : a.Step w w' a') : Orderly ⟨w', as ++ a' :: bs⟩ := by
  have hmem : a ∈ as ++ a :: bs := by simp
  have hdraft : a.drafting = true → w.store.draft.isSome = true := by
    intro hdrafting
    cases hw : w.store.draft with
    | some c => rfl
    | none =>
      rw [h.no_draft hmem hw] at hdrafting
      cases hdrafting
  constructor
  · have hcount := h.drafting
    simp only [List.countP_append, List.countP_cons] at hcount ⊢
    rcases ha.draft_cases hdraft (h.cascade a hmem) with
      ⟨hsame, hsame'⟩ | ⟨hbefore, hafter, hnone, hsome⟩ | ⟨hbefore, hafter, hnone⟩
    · rw [hsame, hsame', hcount]
    · simp only [hbefore, hnone, Option.isSome_none, Bool.false_eq_true, if_false] at hcount
      simp only [hafter, hsome, if_true]
      omega
    · rw [hdraft hbefore, hbefore] at hcount
      simp only [hafter, hnone, Option.isSome_none, Bool.false_eq_true, if_true, if_false]
        at hcount ⊢
      omega
  · intro x hx hm
    rcases List.mem_append.mp hx with hx | hx
    · exact h.cascade x (by simp [hx]) hm
    · rcases List.mem_cons.mp hx with rfl | hx
      · exact ha.cascade_drafting hm
      · exact h.cascade x (by simp [hx]) hm

/-- The steps of a pool are those of one activity, a beginning, and changes of the surroundings;
only the first kind can touch a draft. -/
theorem step (h : P.Orderly) (hst : P.Step admitted Q) : Q.Orderly := by
  cases hst with
  | start _ =>
    constructor
    · simpa [Activity.start] using h.drafting
    · intro x hx hm
      rcases List.mem_append.mp hx with hx | hx
      · exact h.cascade x hx hm
      · rw [List.mem_singleton.mp hx] at hm
        cases hm
  | move as bs ha => exact h.move ha
  | environment clock files => exact ⟨h.drafting, h.cascade⟩

/-- Where there is no draft, no commit is between its halves. -/
theorem quiet (h : P.Orderly) (hdraft : P.world.store.draft = none) : P.Quiet := by
  intro a ha hm
  have hdrafting := h.cascade a ha hm
  rw [h.no_draft ha hdraft] at hdrafting
  cases hdrafting

end Orderly

/-- Every reachable pool has one draft at most. -/
theorem Reachable.orderly (h : P.Reachable admitted) : P.Orderly := by
  induction h with
  | start clock retention => exact ⟨rfl, by simp⟩
  | step _ hst ih => exact ih.step hst

/-- A step of an activity comes to no quiet pool but from a quiet one, or else it ends a commit.  In
the second case the items whose listings are gone have just been taken away. -/
theorem Quiet.of_move {w w' : World} {as bs : List Activity} {a a' : Activity}
    (h : Quiet ⟨w', as ++ a' :: bs⟩) :
    a.remainder = some .cascade ∨ Quiet ⟨w, as ++ a :: bs⟩ := by
  by_cases hm : a.remainder = some .cascade
  · exact Or.inl hm
  · refine Or.inr fun x hx => ?_
    rcases List.mem_append.mp hx with hx | hx
    · exact h x (by simp [hx])
    · rcases List.mem_cons.mp hx with rfl | hx
      · exact hm
      · exact h x (by simp [hx])

/-- Whatever has happened, the order book is consistent, and unless a commit is between its halves,
every item stands for a listing that there is.  The condition is part of what is said of each item,
so that it need not hold at every moment of the induction. -/
theorem Reachable.book (h : P.Reachable admitted) :
    P.world.store.book.Consistent fun listing _ =>
      P.Quiet → P.world.store.catalog.listings.contains listing = true := by
  induction h with
  | start clock retention => exact .empty
  | step _ hst ih =>
    cases hst with
    | start _ =>
      refine ih.imp fun _ _ hlisted hquiet => hlisted fun a ha => hquiet a ?_
      exact List.mem_append_left _ ha
    | environment clock files => exact ih
    | @move w w' a a' as bs ha =>
      by_cases hm : a.remainder = some .cascade
      · -- The second half of a commit takes away just what the first one has left without listing.
        cases ha with
        | call _ hwhole => rw [hwhole] at hm; cases hm
        | drop hwhole => rw [hwhole] at hm; cases hm
        | finish hhalf =>
          rw [hhalf] at hm
          cases hm
          exact (ih.dropUnlisted _).imp fun _ _ hlisted _ => hlisted.2
      · refine ha.consistent (ih.imp ?_) ?_
        · intro listing shop hlisted hquiet
          rw [ha.listings_eq (hquiet a' (by simp))]
          exact hlisted (hquiet.of_move.resolve_left hm)
        · intro order listing shop quantity next hprogram hlisted hquiet
          rw [ha.listings_eq (hquiet a' (by simp))]
          exact hlisted

end Pool

end Marketplace
