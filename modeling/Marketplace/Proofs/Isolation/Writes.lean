import Marketplace.Proofs.Isolation.Others
import Marketplace.Proofs.Job.Custody
import Marketplace.Proofs.Order.Checkout
import Marketplace.Proofs.Shop.Toggle
set_option autoImplicit false

/-!
# Nobody writes what belongs to others

Whatever is done on behalf of an account, with identifiers of whatever objects, others keep what
they have.  Only an import takes something away from others: the order items that stood for listings
of the account's shop which it has replaced.

Each operation is first reduced to the one change that it makes, and the change is shown to keep
what others have (`World.OthersKept`).  The results on single parts of the world are in
`Proofs/Isolation/Others`; what is added here is which part an operation changes.
-/

namespace Marketplace

open Program

/-! ## Jobs -/

/-- The jobs with another one in the place of a job of the same account: those of others stay, in
the same sequence. -/
theorem JobStore.filter_replace {jobs : List Job} {k : Job} {u : UserId} (hk : k.owner = u)
    (hold : ∀ j ∈ jobs, j.id = k.id → j.owner = u) :
    (replace jobs k).filter (fun j => j.owner ≠ u) = jobs.filter fun j => j.owner ≠ u := by
  induction jobs with
  | nil => rfl
  | cons j jobs ih =>
    have hrest := ih fun j' hj' => hold j' (List.mem_cons_of_mem j hj')
    unfold replace at hrest ⊢
    rw [List.map_cons]
    by_cases hid : j.id = k.id
    · have hmine : j.owner = u := hold j List.mem_cons_self hid
      rw [if_pos (beq_iff_eq.mpr hid), List.filter_cons_of_neg (by simp [hk]),
        List.filter_cons_of_neg (by simp [hmine]), hrest]
    · rw [if_neg (by simpa using hid), List.filter_cons, List.filter_cons, hrest]

/-- The account puts a job back: it is one of its own, or the call is refused.  Jobs of others are
found by the store, but not under the account's name. -/
theorem World.OthersKept.retryFailed {w : World} {u : UserId} (hjobs : w.jobs.Distinct)
    (id : JobId) :
    w.OthersKept u (fun _ => False)
      { w with jobs := ((JobCall.retryFailed u id).step w.jobs w.clock).2 } := by
  refine .of_catalog_eq (.refl _ u) ?_ rfl
  simp only [JobCall.step, JobStore.retryFailed]
  cases hfind : w.jobs.find? id with
  | none => rfl
  | some j =>
    by_cases hmine : j.owner = u
    · by_cases hfailed : j.status.isFailed = true
      · have hthere := List.mem_of_find?_eq_some hfind
        simp only [hmine, bne_self_eq_false, Bool.false_eq_true, if_false, hfailed, if_true]
        refine JobStore.filter_replace hmine fun k hk hid => ?_
        rw [hjobs.eq_of_id_eq hk hthere hid, hmine]
      · simp only [hmine, bne_self_eq_false, Bool.false_eq_true, if_false, hfailed]
    · have hother : (j.owner != u) = true := by simpa using hmine
      simp only [hother, if_true]

/-! ## Contacts -/

namespace Contacts

variable {w w' : World} {u : UserId}

/-- The answer to a change of a contact that has been looked for.  A change that says nothing is
refused before anything is looked for. -/
def updateAnswer (id : ContactId) (patch : AddressInput) (found : Option Contact) :
    Except Refusal Contact :=
  if patch.isBlank then .error (.invalidArguments "no fields to update")
  else patch.checkPatch.bind fun _ =>
    match found with
    | none => .error (.notFound s!"contact {id}")
    | some x => .ok { x with address := patch.patch x.address }

/-- The answer to the deletion of contacts of which so many have been found. -/
def deleteAnswer (ids : List ContactId) (found : Nat) : Except Refusal Nat :=
  if ids.isEmpty then .error (.invalidArguments "items: is required") else .ok found

/-- A contact is changed only if it is the account's, so the book is the same for everybody else. -/
theorem run_update (w : World) (u : UserId) (id : ContactId) (patch : AddressInput) :
    ∃ b, (update u id patch).run.run World.handle w =
        some (updateAnswer id patch (w.store.book.contact? u id),
          { w with store := { w.store with book := b } }) ∧
      (b = w.store.book ∨ b = (w.store.book.updateContact u id patch).2) := by
  unfold update updateAnswer
  cases patch.isBlank with
  | true => exact ⟨_, rfl, Or.inl rfl⟩
  | false =>
    cases patch.checkPatch with
    | error f => exact ⟨_, rfl, Or.inl rfl⟩
    | ok _ =>
      refine ⟨_, ?_, Or.inr rfl⟩
      have hcall := Orders.run_contacts w (.update u id patch)
      show (Service.contacts (.update u id patch) >>= fun found =>
        Service.orRefuse _ found).run.run World.handle w = _
      rw [run_bind_of_ok hcall]
      simp only [ContactCall.step, Store.onBook, OrderBook.updateContact]
      cases w.store.book.contact? u id <;> rfl

/-- Of the contacts named only the account's are deleted, and orders of others do not name them. -/
theorem run_delete (w : World) (u : UserId) (ids : List ContactId) :
    ∃ b, (delete u ids).run.run World.handle w =
        some (deleteAnswer ids (w.store.book.ownContacts u ids).size,
          { w with store := { w.store with book := b } }) ∧
      (b = w.store.book ∨ b = (w.store.book.deleteContacts u ids).2) := by
  unfold delete deleteAnswer
  cases ids.isEmpty with
  | true => exact ⟨_, rfl, Or.inl rfl⟩
  | false => exact ⟨_, rfl, Or.inr rfl⟩

/-- A new contact is the account's, under an identifier that nobody has. -/
theorem run_create (w : World) (u : UserId) (draft : AddressInput) :
    ∃ r b, (create u draft).run.run World.handle w =
        some (r, { w with store := { w.store with book := b } }) ∧
      (b = w.store.book ∨ ∃ a, b = (w.store.book.insertContact u a).2) := by
  unfold create
  cases draft.checkDraft with
  | error f => exact ⟨_, _, rfl, Or.inl rfl⟩
  | ok a => exact ⟨_, _, rfl, Or.inr ⟨a, rfl⟩⟩

end Contacts

/-! ## Shops -/

/-- A shop that has changed shows in its own listings only. -/
theorem Catalog.view?_modify_shop (c : Catalog) {shop : ShopId} (f : Shop → Shop)
    {l : ListingData} (hl : l.shop ≠ shop) (id : ListingId) :
    view? { c with shops := c.shops.modify shop f } id l = c.view? id l := by
  simp only [view?, Table.get?_modify, if_neg hl]
  rfl

/-- The owner opens or closes the shop.  It shows in listings of the shop, which are the owner's. -/
theorem World.OthersKept.setAccepting {w : World} {u : UserId} {s : Shop} (hsound : w.store.Sound)
    (hdraft : w.store.draft = none) (hs : w.store.catalog.shopOf? u = some s) (accepting : Bool) :
    w.OthersKept u (fun _ => False) (w.setAccepting s.id accepting) := by
  obtain ⟨hthere, howner⟩ := hsound.catalog.shopOf?_eq_some_iff.mp hs
  have hafter := (hsound.setAccepting hdraft s.id accepting).catalog
  refine ⟨.refl _ u, rfl, .modify fun t ht => ?_, ?_⟩
  · rw [hthere] at ht
    cases ht
    exact ⟨not_not_intro howner, not_not_intro howner⟩
  · rintro id v ⟨t, ht, hother⟩
    have hne : v.shop.id ≠ s.id := by
      intro hid
      rw [hid, hthere] at ht
      cases ht
      exact hother howner
    simp only [Catalog.listing?, Option.bind_eq_some_iff]
    constructor
    · rintro ⟨l, hl, hv⟩
      have hshop : l.shop ≠ s.id := (hafter.view_eq hl hv).2 ▸ hne
      exact ⟨l, hl, (w.store.catalog.view?_modify_shop _ hshop id).symm.trans hv⟩
    · rintro ⟨l, hl, hv⟩
      have hshop : l.shop ≠ s.id := (hsound.catalog.view_eq hl hv).2 ▸ hne
      exact ⟨l, hl, (w.store.catalog.view?_modify_shop _ hshop id).trans hv⟩

/-- A shop is opened or closed where nobody imports. -/
theorem Shops.run_setAccepting {w w' : World} {shop : ShopId} {accepting : Bool}
    {r : Except Refusal (Option Shop)}
    (hrun : (Service.catalog (.setAccepting shop accepting)).run.run World.handle w =
      some (r, w')) :
    w.store.draft = none ∧ w' = w.setAccepting shop accepting := by
  obtain ⟨answer, v, hcall, hrest⟩ := run_call_eq_some_iff.mp hrun
  cases hrest
  cases hdraft : w.store.draft with
  | some c =>
    simp only [World.handle, StoreCall.step, CatalogCall.step, Store.setAccepting?, hdraft] at hcall
    cases hcall
  | none =>
    simp only [World.handle, StoreCall.step, CatalogCall.step, Store.setAccepting?, hdraft] at hcall
    cases hcall
    exact ⟨rfl, by simp only [World.setAccepting, hdraft]⟩

/-- Whoever wants to open or close a shop does nothing, or does so to a shop of the account.  What
the shop was set to before is read in a call of its own, but alone nothing comes in between. -/
theorem Shops.run_toggle {w w' : World} {a : Account} {r : Except Refusal Shop}
    (hrun : (toggle a).run.run World.handle w = some (r, w')) :
    w' = w ∨ ∃ s accepting, w.store.draft = none ∧ w.store.catalog.shopOf? a.id = some s ∧
      w' = w.setAccepting s.id accepting := by
  unfold toggle at hrun
  have hread : (Service.catalog (.shopByOwner a.id)).run.run World.handle w =
      some (.ok (w.store.catalog.shopOf? a.id), w) := rfl
  have hown : (own a).run.run World.handle w = (Service.ofExcept a.requireShop >>= fun _ =>
      Service.orRefuse noShop (w.store.catalog.shopOf? a.id)).run.run World.handle w := by
    unfold own
    cases a.requireShop with
    | error f => rfl
    | ok _ =>
      simp only [Service.ofExcept, pure_bind]
      exact run_bind_of_ok hread
  cases hshop : a.requireShop with
  | error f =>
    rw [hshop] at hown
    rw [run_bind_of_error hown] at hrun
    cases hrun
    exact Or.inl rfl
  | ok _ =>
    rw [hshop] at hown
    cases hs : w.store.catalog.shopOf? a.id with
    | none =>
      rw [hs] at hown
      rw [run_bind_of_error hown] at hrun
      cases hrun
      exact Or.inl rfl
    | some s =>
      rw [hs] at hown
      rw [run_bind_of_ok hown, bind_exceptT, run_bind, Option.bind_eq_some_iff] at hrun
      obtain ⟨⟨found, v⟩, hwrite, hanswer⟩ := hrun
      obtain ⟨hdraft, rfl⟩ := run_setAccepting hwrite
      refine Or.inr ⟨s, !s.acceptingOrders, hdraft, rfl, ?_⟩
      cases found with
      | error f =>
        cases hanswer
        rfl
      | ok changed =>
        cases changed <;> cases hanswer <;> rfl

/-! ## Imports -/

/-- The listing was one of a shop of the account, and has been replaced.  These are the only
listings whose order items may go. -/
def Catalog.Replaced (c : Catalog) (u : UserId) (c' : Catalog) (listing : ListingId) : Prop :=
  (∃ l s, c.listings.get? listing = some l ∧ c.shops.get? l.shop = some s ∧ s.owner = u) ∧
    c'.listings.contains listing = false

namespace Importer

variable {list : PriceList} {user : UserId} {shop : ShopId} {c c' : Catalog} {n : CatalogCounters}

/-- Shops of others are not the shop of the import, since that is the user's. -/
theorem Effect.ne_of_other (h : Effect list user shop c c') {id : ShopId} {s : Shop}
    (hs : c.shops.get? id = some s) (hother : s.owner ≠ user) : id ≠ shop := by
  rintro rfl
  obtain ⟨row, hrow, -, -, howner, -⟩ := h.owned
  rw [h.shops.1 _ _ hs] at hrow
  cases hrow
  exact hother howner

theorem Effect.shops_agree (h : Effect list user shop c c') :
    c.shops.AgreeOn c'.shops fun s => s.owner ≠ user := by
  intro id s hother
  refine ⟨fun hs => ?_, h.shops.1 id s⟩
  rcases h.shops.2 id (Table.contains_of_get? hs) with hold | rfl
  · obtain ⟨t, ht⟩ := Table.contains_iff.mp hold
    rw [h.shops.1 id t ht] at hs
    cases hs
    exact ht
  · obtain ⟨row, hrow, -, -, howner, -⟩ := h.owned
    rw [hs] at hrow
    cases hrow
    exact absurd howner hother

/-- Of the listings of before just the replaced ones are gone.  New listings have new identifiers,
so a listing of before that is there is not a new one in its place. -/
theorem Effect.contains_iff (h : Effect list user shop c c') (hc : c.Coherent n)
    {m : CatalogCounters} (hc' : c'.Coherent m) {id : ListingId}
    (hid : c.listings.contains id = true) :
    c'.listings.contains id = true ↔ ¬c.Replaced user c' id := by
  constructor
  · rintro hthere ⟨-, hgone⟩
    rw [hthere] at hgone
    cases hgone
  · intro hkept
    by_contra hgone
    rw [Bool.not_eq_true] at hgone
    refine hkept ⟨?_, hgone⟩
    rw [h.contains_eq hc hc' hid, Bool.not_eq_false'] at hgone
    obtain ⟨l, hl, hshop⟩ := (Option.any_eq_true _ _).mp hgone
    obtain ⟨s, hs⟩ := Table.contains_iff.mp (hc.listings id l hl).2.2.1
    refine ⟨l, s, hl, hs, ?_⟩
    by_contra hother
    exact h.ne_of_other hs hother (beq_iff_eq.mp hshop)

/-- An import keeps what others have, but for the items that stood for what it has replaced.  If it
fails it keeps everything; if it goes well, its effect on the catalog says what is replaced. -/
theorem othersKept_apply {admitted : Program Unit → Prop} {P : Pool} (hP : P.Reachable admitted)
    {w : World} {r : Except ImportFault ImportSummary}
    (hrun : (apply list user).run.run World.handle P.world = some (r, w)) :
    P.world.OthersKept user
      (fun i => P.world.store.catalog.Replaced user w.store.catalog i.listing) w := by
  obtain ⟨hdraft, e, hprepare, rfl⟩ := (run_apply list user).mp hrun
  have hsound := hP.store.sound.catalog
  have hlisted : ∀ k i, P.world.store.book.items.get? k = some i →
      P.world.store.catalog.listings.contains i.listing = true := by
    intro k i hi
    obtain ⟨-, -, -, hthere⟩ := hP.book.items k i hi
    exact hthere (hP.orderly.quiet hdraft)
  cases r with
  | error f =>
    refine .of_catalog_eq ⟨.refl _ _, fun k i _ => ?_, .refl _ _⟩ rfl rfl
    refine (and_iff_left_of_imp fun hi => ?_).symm
    rintro ⟨-, hgone⟩
    exact Bool.false_ne_true (hgone.symm.trans (hlisted k i hi))
  | ok summary =>
    obtain ⟨s, d₁, t, hparts, -⟩ := prepare_does hsound hprepare
    have heffect := hparts.effect
    refine ⟨⟨.refl _ _, fun k i _ => ?_, .refl _ _⟩, rfl, heffect.shops_agree, ?_⟩
    · show (P.world.store.book.items.filter _).get? k = some i ↔ _
      rw [Table.get?_filter_eq_some_iff]
      refine and_congr_right fun hi => ?_
      exact heffect.contains_iff hsound hparts.after (hlisted k i hi)
    · rintro id v ⟨shop, hshop, hother⟩
      exact heffect.others id v (heffect.ne_of_other hshop hother)

end Importer

/-! ## All that is done on behalf of an account -/

/-- What is done on behalf of an account; whatever it names may be somebody else's. -/
inductive Operation
  | errand (e : Errand)
  | createContact (draft : AddressInput)
  | updateContact (id : ContactId) (patch : AddressInput)
  | deleteContacts (ids : List ContactId)
  | submit (j : Job)
  | retry (id : JobId)
  | toggle
  | importList (list : PriceList)

namespace Operation

/-- What the operation answers. -/
abbrev Outcome : Operation → Type
  | .errand e => Except Refusal e.Result
  | .createContact _ | .updateContact _ _ => Except Refusal Contact
  | .deleteContacts _ => Except Refusal Nat
  | .submit _ => Except JobFault JobId
  | .retry _ => Except JobFault Job
  | .toggle => Except Refusal Shop
  | .importList _ => Except ImportFault ImportSummary

/-- The program that does the operation for an account; a submitted job is the account's. -/
def program (a : Account) : (op : Operation) → Program op.Outcome
  | .errand e => (e.service a.id).run
  | .createContact draft => (Contacts.create a.id draft).run
  | .updateContact id patch => (Contacts.update a.id id patch).run
  | .deleteContacts ids => (Contacts.delete a.id ids).run
  | .submit j => (JobService.submit { j with owner := a.id }).run
  | .retry id => (JobService.retry a.id id).run
  | .toggle => (Shops.toggle a).run
  | .importList list => (Importer.apply list a.id).run

/-- The item goes because the operation is an import that has replaced its listing.  No other
operation takes items of others away. -/
def Loses (u : UserId) (w w' : World) (i : OrderItem) : Operation → Prop
  | .importList _ => w.store.catalog.Replaced u w'.store.catalog i.listing
  | _ => False

end Operation

/-- Whatever has happened before, and whatever becomes of it, an operation on behalf of an account
leaves all orders, order items, contacts and jobs of others, all their shops and the listings of
these as they are; but an import takes away the items that stood for what it has replaced. -/
theorem Pool.Reachable.others_kept {P : Pool} (hP : P.Reachable Program.ThroughServices)
    (a : Account) (op : Operation) {w : World} {r : op.Outcome}
    (hrun : (op.program a).run World.handle P.world = some (r, w)) :
    P.world.OthersKept a.id (fun i => op.Loses a.id P.world w i) w := by
  cases op with
  | errand e => exact e.othersKept hP.lawful hrun
  | createContact draft =>
    obtain ⟨answer, b, hcreate, hb⟩ := Contacts.run_create P.world a.id draft
    cases hcreate.symm.trans hrun
    refine .of_catalog_eq ?_ rfl rfl
    rcases hb with rfl | ⟨address, rfl⟩
    · exact .refl _ _
    · exact OrderBook.othersKept_insertContact hP.lawful a.id address
  | updateContact id patch =>
    obtain ⟨b, hupdate, hb⟩ := Contacts.run_update P.world a.id id patch
    cases hupdate.symm.trans hrun
    refine .of_catalog_eq ?_ rfl rfl
    rcases hb with rfl | rfl
    · exact .refl _ _
    · exact OrderBook.othersKept_updateContact _ _ _ _
  | deleteContacts ids =>
    obtain ⟨b, hdelete, hb⟩ := Contacts.run_delete P.world a.id ids
    cases hdelete.symm.trans hrun
    refine .of_catalog_eq ?_ rfl rfl
    rcases hb with rfl | rfl
    · exact .refl _ _
    · refine OrderBook.othersKept_deleteContacts ?_ _ _
      intro id o contact x ho hcontact hx
      exact hP.contact_of_order ho hcontact hx
  | submit j =>
    obtain ⟨answer, v, hcall, hrest⟩ := run_call_eq_some_iff.mp hrun
    cases hcall
    cases hrest
    exact .enqueue P.world rfl
  | retry id =>
    obtain ⟨answer, v, hcall, hrest⟩ := run_call_eq_some_iff.mp hrun
    cases hcall
    cases hrest
    exact .retryFailed hP.distinct_jobs id
  | toggle =>
    rcases Shops.run_toggle hrun with rfl | ⟨s, accepting, hdraft, hs, rfl⟩
    · exact .refl _ _
    · exact .setAccepting hP.store.sound hdraft hs accepting
  | importList list => exact Importer.othersKept_apply hP hrun

/-- The first shop of `phoneSale` imports again: the buyer loses its phone, and keeps that of the
other shop. -/
theorem Pool.Reachable.others_kept_by_laterList : ∃ (P : Pool) (w : World)
    (r : Except ImportFault ImportSummary), P.Reachable Program.ThroughServices ∧
      ((Operation.importList Importer.laterList).program ⟨⟨1⟩, "owner@example.com", .shop⟩).run
        World.handle P.world = some (r, w) ∧
      P.world.OthersKept ⟨1⟩
        (fun i => P.world.store.catalog.Replaced ⟨1⟩ w.store.catalog i.listing) w ∧
      P.world.store.book.items.values = [⟨⟨1⟩, ⟨1⟩, ⟨1⟩, ⟨1⟩, 3⟩, ⟨⟨2⟩, ⟨1⟩, ⟨2⟩, ⟨2⟩, 1⟩] ∧
      w.store.book.items.values = [⟨⟨2⟩, ⟨1⟩, ⟨2⟩, ⟨2⟩, 1⟩] := by
  have hplay : (Pool.play (List.replicate 13 0 ++ List.replicate 13 1 ++ List.replicate 7 2)
      ⟨.start ⟨0, 0⟩ 3, Importer.phoneSale.map .start⟩).any (fun P =>
        ((Importer.apply Importer.laterList ⟨1⟩).run.run World.handle P.world).any fun r =>
          decide (P.world.store.book.items.values =
              [⟨⟨1⟩, ⟨1⟩, ⟨1⟩, ⟨1⟩, 3⟩, ⟨⟨2⟩, ⟨1⟩, ⟨2⟩, ⟨2⟩, 1⟩] ∧
            r.2.store.book.items.values = [⟨⟨2⟩, ⟨1⟩, ⟨2⟩, ⟨2⟩, 1⟩])) = true := by
    decide +kernel
  obtain ⟨P, hP, hfacts⟩ := (Option.any_eq_true _ _).mp hplay
  obtain ⟨⟨r, w⟩, hrun, hfacts⟩ := (Option.any_eq_true _ _).mp hfacts
  obtain ⟨hbefore, hafter⟩ := of_decide_eq_true hfacts
  have hreach := (Pool.Reachable.begin ⟨0, 0⟩ 3 throughServices_phoneSale).play hP
  exact ⟨P, w, r, hreach, hrun, hreach.others_kept ⟨⟨1⟩, "owner@example.com", .shop⟩
    (.importList Importer.laterList) hrun, hbefore, hafter⟩

end Marketplace
