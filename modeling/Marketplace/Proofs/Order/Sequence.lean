import Marketplace.Proofs.Order.Knowledge
set_option autoImplicit false

/-!
# The sequence of items

Items stand in the sequence in which they were given their identifiers, whatever has happened since
(`Pool.Reachable.items_ascending`).  So two books with the same items of an order list them in the
same sequence.
-/

namespace Marketplace

/-! ## Tables in the sequence of their keys -/

namespace Table

variable {kind : IdKind} {α : Type} {t u : Table (Id kind) α}

/-- The keys stand in ascending sequence. -/
def Ascending (t : Table (Id kind) α) : Prop := t.keys.Pairwise fun k l => k.value < l.value

theorem Ascending.empty : (empty : Table (Id kind) α).Ascending := List.Pairwise.nil

theorem Ascending.filter (h : t.Ascending) (p : Id kind → α → Bool) : (t.filter p).Ascending :=
  List.Pairwise.sublist (List.filter_sublist.map Prod.fst) h

/-- A key beyond all others goes to the end. -/
theorem Ascending.insert_new (h : t.Ascending) {k : Id kind} (a : α)
    (hk : ∀ l b, t.get? l = some b → l.value < k.value) : (t.insert k a).Ascending := by
  have hnone : t.get? k = none :=
    Option.eq_none_iff_forall_ne_some.mpr fun b hb => Int.lt_irrefl _ (hk k b hb)
  unfold Ascending keys
  rw [entries_insert_new hnone, List.map_append, List.pairwise_append]
  refine ⟨h, List.pairwise_singleton _ _, fun l hl m hm => ?_⟩
  obtain ⟨⟨l, b⟩, hb, rfl⟩ := List.mem_map.mp hl
  rw [List.mem_singleton.mp hm]
  exact hk l b (mem_entries_iff.mp hb)

/-- A key that had a row keeps its place. -/
theorem Ascending.insert_old (h : t.Ascending) {k : Id kind} {a b : α} (hk : t.get? k = some b) :
    (t.insert k a).Ascending := by
  have hput : ∀ es : List (Id kind × α), lookup k es = some b →
      (put k a es).map Prod.fst = es.map Prod.fst := by
    intro es
    induction es with
    | nil => exact nofun
    | cons e es ih =>
      obtain ⟨l, c⟩ := e
      intro hl
      by_cases heq : l = k
      · simp only [put, heq, if_true, List.map_cons]
      · simp only [lookup, heq, if_false] at hl
        simp only [put, heq, if_false, List.map_cons, ih hl]
  unfold Ascending keys
  have hkeys : (t.insert k a).entries.map Prod.fst = t.entries.map Prod.fst := hput t.entries hk
  rw [hkeys]
  exact h

/-- Rows that are the same ones and pass the same test stand in the same sequence. -/
theorem AgreeOn.filter_values {sort : α → Prop} (h : t.AgreeOn u sort) (ht : t.Ascending)
    (hu : u.Ascending) {p : Id kind → α → Bool} (hp : ∀ k a, p k a = true → sort a) :
    (u.filter p).values = (t.filter p).values := by
  have hpair : ∀ v : Table (Id kind) α, v.Ascending →
      v.entries.Pairwise fun x y => x.1.value < y.1.value := by
    intro v hv
    have hentries := List.pairwise_map.mp hv
    exact hentries
  have hentries : (u.filter p).entries = (t.filter p).entries := by
    refine List.Perm.eq_of_pairwise ?_ (hpair _ (hu.filter p)) (hpair _ (ht.filter p))
      (h.perm_filter hp)
    intro x y _ _ hxy hyx
    omega
  exact congrArg (List.map Prod.snd) hentries

end Table

/-! ## Items -/

/-- A new item goes behind all others, and the others keep their places. -/
theorem OrderBook.Change.items_ascending {listed : ListingId → Bool} {b b' : OrderBook} {c : Call}
    (h : b.Change listed c b') (hb : b.Lawful) (hi : b.items.Ascending) : b'.items.Ascending := by
  cases h with
  | insertItem hinsert =>
    obtain ⟨-, -, -, rfl, rfl⟩ := insertItem_ok hinsert
    refine hi.insert_new _ fun k i hk => ?_
    have hle := hb.items k i hk
    simp only
    omega
  | updateQuantity hold _ => exact hi.insert_old hold
  | deleteItems => exact hi.filter _
  | _ => exact hi

theorem Activity.Turns.items_ascending {a : Activity} {w : World} {b : OrderBook}
    (h : a.Turns w b) (hb : w.store.book.Lawful) (hi : w.store.book.items.Ascending) :
    b.items.Ascending := by
  cases h with
  | call _ _ hchange => exact hchange.items_ascending hb hi
  | cascade _ => exact hi.filter _
  | clear _ => exact hi
  | drop => exact hi

/-- Whatever programs run, items stand in the sequence of their identifiers. -/
theorem Pool.Reachable.items_ascending {admitted : Program Unit → Prop} {P : Pool}
    (h : P.Reachable admitted) : P.world.store.book.items.Ascending := by
  induction h with
  | start clock retention => exact .empty
  | @step P Q hP hst ih =>
    cases hst with
    | start _ => exact ih
    | move as bs ha => exact ha.turns.items_ascending hP.lawful ih
    | environment clock files => exact ih

end Marketplace
