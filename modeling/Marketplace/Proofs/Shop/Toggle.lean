import Mathlib.Logic.Function.Iterate
import Marketplace.Proofs.Storage.Pool
import Marketplace.Service.Shops
set_option autoImplicit false

/-!
# Opening and closing a shop

Who opens or closes a shop first reads it and then writes the opposite of what has been read, as two
calls.  Toggles that come one after the other all count (`Pool.toggled_in_turn`).  Nothing keeps two
of them from reading before either has written, and then one is lost (`Pool.exists_toggle_lost`).

The toggles in turn are counted by an invariant: so many toggles are over, so often is the shop
flipped, and none is halfway (`Toggled`).  The lost one is a schedule in which two are halfway at
the same time.
-/

namespace Marketplace

namespace Shops

/-- A toggle, for whose answer nobody waits. -/
def toggling (a : Account) : Program Unit := (toggle a).run.bind fun _ => .done ()

/-- What is left of a toggle that has read the shop. -/
def rewriting (s : Shop) : Program Unit :=
  (do
    let changed ← Service.catalog (.setAccepting s.id !s.acceptingOrders)
    Service.orRefuse (.notFound s!"shop {s.id}") changed).run.bind fun _ => .done ()

/-- The owner of a shop begins by reading it. -/
theorem exists_toggling_eq {a : Account} (ha : a.type = .shop) :
    ∃ next, toggling a = .call (.store (.catalog (.shopByOwner a.id))) next ∧
      ∀ s, next (.ok (some s)) = rewriting s := by
  unfold toggling toggle own Account.requireShop Account.require
  rw [ha]
  exact ⟨_, rfl, fun s => rfl⟩

/-- Writing ends the toggle. -/
theorem exists_rewriting_eq (s : Shop) :
    ∃ next, rewriting s = .call (.store (.catalog (.setAccepting s.id !s.acceptingOrders))) next ∧
      ∀ changed, next (.ok changed) = .done () := by
  refine ⟨_, rfl, fun changed => ?_⟩
  cases changed <;> rfl

end Shops

/-- The world in which a shop has been opened or closed for orders. -/
def World.setAccepting (w : World) (shop : ShopId) (accepting : Bool) : World :=
  { w with store := { w.store with catalog := { w.store.catalog with
      shops := w.store.catalog.shops.modify shop fun row =>
        { row with acceptingOrders := accepting } } } }

namespace Activity

variable {w w' : World} {a : Account} {s : Shop} {x : Activity}

/-- The program is over. -/
def isOver (x : Activity) : Bool :=
  match x.program with
  | .done _ => true
  | .call _ _ => false

/-- A program is over when nothing is left of it. -/
theorem isOver_iff : x.isOver = true ↔ x.program = .done () := by
  unfold isOver
  split
  · rename_i u hprogram
    exact iff_of_true rfl hprogram
  · rename_i c next hprogram
    rw [hprogram]
    exact iff_of_false (by simp) (by simp)

/-- The first call of a toggle changes nothing. -/
theorem advance?_toggling (ha : a.type = .shop) (hs : w.store.catalog.shopOf? a.id = some s) :
    (start (Shops.toggling a)).advance? w = some (w, start (Shops.rewriting s)) := by
  obtain ⟨next, hprogram, hnext⟩ := Shops.exists_toggling_eq ha
  rw [hprogram, ← hnext, ← hs]
  rfl

/-- The second call waits for imports, and then writes. -/
theorem advance?_rewriting (h : (start (Shops.rewriting s)).advance? w = some (w', x)) :
    w' = w.setAccepting s.id !s.acceptingOrders ∧ x = ended := by
  obtain ⟨next, hprogram, hnext⟩ := Shops.exists_rewriting_eq s
  rw [hprogram] at h
  simp only [advance?, start, allows, World.act, World.handle, StoreCall.step, CatalogCall.step,
    Store.setAccepting?] at h
  cases hdraft : w.store.draft with
  | some c =>
    rw [hdraft] at h
    cases h
  | none =>
    rw [hdraft] at h
    cases h
    refine ⟨?_, ?_⟩
    · simp only [World.setAccepting, hdraft]
    · rw [hnext]
      rfl

end Activity

namespace Pool

variable {a : Account} {shop : Shop} {n k i : Nat} {P Q : Pool}

/-- Of so many toggles so many are over, and the others have not begun. -/
structure Toggled (a : Account) (shop : Shop) (n k : Nat) (P : Pool) : Prop where
  total : P.activities.length = n
  phases : ∀ x ∈ P.activities, x = .start (Shops.toggling a) ∨ x = .ended
  count : P.activities.countP Activity.isOver = k
  owner : P.world.store.catalog.shopOwners.get? a.id = some shop.id
  row : P.world.store.catalog.shops.get? shop.id =
    some { shop with acceptingOrders := not^[k] shop.acceptingOrders }

namespace Toggled

/-- Both calls of a toggle, one right after the other, flip the shop once. -/
theorem turn (h : P.Toggled a shop n k) (ha : a.type = .shop) (hplay : play [i, i] P = some Q) :
    Q.Toggled a shop n (k + 1) := by
  simp only [play, Option.bind_eq_some_iff] at hplay
  obtain ⟨x, hx, ⟨w, y⟩, hfirst, z, hz, ⟨w', z'⟩, hsecond, heq⟩ := hplay
  cases heq
  obtain ⟨hi, rfl⟩ := List.getElem?_eq_some_iff.mp hx
  rcases h.phases _ (List.getElem_mem hi) with hstart | hended
  · have hread : P.world.store.catalog.shopOf? a.id =
        some { shop with acceptingOrders := not^[k] shop.acceptingOrders } := by
      rw [Catalog.shopOf?, h.owner, Option.bind_some, h.row]
    rw [hstart, Activity.advance?_toggling ha hread] at hfirst
    cases hfirst
    rw [List.getElem?_set_self hi, Option.some.injEq] at hz
    subst hz
    obtain ⟨rfl, rfl⟩ := Activity.advance?_rewriting hsecond
    simp only [List.set_set]
    refine ⟨?_, fun x hx => ?_, ?_, h.owner, ?_⟩
    · rw [List.length_set, h.total]
    · rcases List.mem_or_eq_of_mem_set hx with hold | rfl
      · exact h.phases x hold
      · exact Or.inr rfl
    · have hbefore : P.activities[i].isOver = false := by
        obtain ⟨next, hprogram, -⟩ := Shops.exists_toggling_eq ha
        rw [hstart, Activity.isOver, Activity.start, hprogram]
      have hafter : Activity.ended.isOver = true := rfl
      rw [List.countP_set hi, h.count, hbefore, hafter]
      rfl
    · simp only [World.setAccepting, Table.get?_modify, if_true, h.row, Option.map_some,
        Function.iterate_succ', Function.comp_apply]
  · rw [hended] at hfirst
    cases hfirst

theorem turns (h : P.Toggled a shop n k) (ha : a.type = .shop) {is : List Nat}
    (hplay : play (is.flatMap fun i => [i, i]) P = some Q) : ∃ k, Q.Toggled a shop n k := by
  induction is generalizing P k with
  | nil =>
    cases hplay
    exact ⟨k, h⟩
  | cons i is ih =>
    rw [List.flatMap_cons, play_append, Option.bind_eq_some_iff] at hplay
    obtain ⟨R, hfirst, hrest⟩ := hplay
    exact ih (h.turn ha hfirst) hrest

end Toggled

/-- Of any number of toggles by a shop's owner each counts if it writes the shop before another one
reads it: once all are over, the shop has been flipped as often as there are toggles. -/
theorem toggled_in_turn {w : World} (hw : w.store.Reachable) (ha : a.type = .shop)
    (hshop : w.store.catalog.shopOf? a.id = some shop) {is : List Nat}
    (hplay : play (is.flatMap fun i => [i, i])
      ⟨w, List.replicate n (.start (Shops.toggling a))⟩ = some Q)
    (hover : ∀ x ∈ Q.activities, x.program = .done ()) :
    Q.world.store.catalog.shopOf? a.id =
      some { shop with acceptingOrders := not^[n] shop.acceptingOrders } := by
  have hstart : Toggled a shop n 0 ⟨w, List.replicate n (.start (Shops.toggling a))⟩ := by
    obtain ⟨hrow, howner⟩ := hw.sound.catalog.shopOf?_eq_some_iff.mp hshop
    obtain ⟨next, hprogram, -⟩ := Shops.exists_toggling_eq ha
    refine ⟨List.length_replicate, fun x hx => ?_, ?_, ?_, hrow⟩
    · exact Or.inl (List.eq_of_mem_replicate hx)
    · rw [List.countP_eq_zero]
      intro x hx
      rw [List.eq_of_mem_replicate hx, Activity.isOver, Activity.start, hprogram]
      simp
    · exact (hw.sound.catalog.shopOwners a.id shop.id).mpr ⟨shop, hrow, howner⟩
  obtain ⟨k, hend⟩ := hstart.turns ha hplay
  have hk : k = n := by
    have hall : Q.activities.countP Activity.isOver = Q.activities.length :=
      List.countP_eq_length.mpr fun x hx => Activity.isOver_iff.mpr (hover x hx)
    rw [← hend.count, hall, hend.total]
  subst hk
  rw [Catalog.shopOf?, hend.owner, Option.bind_some, hend.row]

/-- A world with one shop, which accepts orders, and the owner's account. -/
def soleShop : World × Account :=
  ({ World.start ⟨0, 0⟩ 3 with
      store := [.createShop "Acme" ⟨1⟩, .commit].foldl (fun s c => (DraftCall.step s c).2)
        ⟨.empty, some .empty, .start, .empty, .empty⟩ },
    ⟨⟨1⟩, "owner@example.com", .shop⟩)

theorem reachable_soleShop : soleShop.1.store.Reachable :=
  (Store.Reachable.empty.step
    (.catalog (show CatalogCall.begin.step _ = some ((), _) from rfl))).drafts _

/-- Three toggles one after the other close the shop. -/
theorem toggled_in_turn_soleShop : ∃ (s : Shop) (Q : Pool),
    soleShop.1.store.Reachable ∧ soleShop.2.type = .shop ∧
      soleShop.1.store.catalog.shopOf? soleShop.2.id = some s ∧
      play ([0, 2, 1].flatMap fun i => [i, i])
        ⟨soleShop.1, List.replicate 3 (.start (Shops.toggling soleShop.2))⟩ = some Q ∧
      (∀ x ∈ Q.activities, x.program = .done ()) ∧
      Q.world.store.catalog.shopOf? soleShop.2.id =
        some { s with acceptingOrders := not^[3] s.acceptingOrders } := by
  have hplay : (play ([0, 2, 1].flatMap fun i => [i, i])
      ⟨soleShop.1, List.replicate 3 (.start (Shops.toggling soleShop.2))⟩).any
        (fun Q => Q.activities.all Activity.isOver) = true := by
    decide +kernel
  simp only [Option.any_eq_true, List.all_eq_true, Activity.isOver_iff] at hplay
  obtain ⟨Q, hQ, hover⟩ := hplay
  exact ⟨_, Q, reachable_soleShop, rfl, rfl, hQ, hover,
    toggled_in_turn reachable_soleShop rfl rfl hQ hover⟩

/-- In general a toggle may be lost: of two that read the shop before either has written, both close
it, and it stays closed. -/
theorem exists_toggle_lost : ∃ (s : Shop) (Q : Pool),
    soleShop.1.store.Reachable ∧ soleShop.2.type = .shop ∧
      soleShop.1.store.catalog.shopOf? soleShop.2.id = some s ∧
      play [0, 1, 0, 1]
        ⟨soleShop.1, List.replicate 2 (.start (Shops.toggling soleShop.2))⟩ = some Q ∧
      (∀ x ∈ Q.activities, x.program = .done ()) ∧
      (Q.world.store.catalog.shopOf? soleShop.2.id).map Shop.acceptingOrders ≠
        some (not^[2] s.acceptingOrders) := by
  have hplay : (play [0, 1, 0, 1]
      ⟨soleShop.1, List.replicate 2 (.start (Shops.toggling soleShop.2))⟩).any (fun Q =>
        Q.activities.all Activity.isOver &&
          (Q.world.store.catalog.shopOf? soleShop.2.id).map Shop.acceptingOrders ==
            some false) = true := by
    decide +kernel
  simp only [Option.any_eq_true, Bool.and_eq_true, List.all_eq_true, Activity.isOver_iff,
    beq_iff_eq] at hplay
  obtain ⟨Q, hQ, hover, hclosed⟩ := hplay
  refine ⟨_, Q, reachable_soleShop, rfl, rfl, hQ, hover, ?_⟩
  rw [hclosed]
  exact nofun

end Pool

end Marketplace
