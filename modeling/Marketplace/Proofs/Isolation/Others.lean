import Marketplace.Proofs.Order.Frozen
set_option autoImplicit false

/-!
# What belongs to others

`World.OthersKept` says that whatever belongs to other accounts is as it was.  An errand of a buyer
keeps it so, because it works for the buyer alone (`Call.IsFor`) and by the rules (`Call.Allowed`):
it touches no order but one that it has been told is the buyer's.
-/

namespace Marketplace

open Program

/-! ## Orders, items and contacts -/

namespace OrderBook

variable {listed : ListingId → Bool} {b b' b'' : OrderBook} {c : Call} {u : UserId}
  {lost : OrderItem → Prop}

/-- The order is the account's.  Baskets and placed orders are owned alike. -/
def Owns (b : OrderBook) (u : UserId) (order : OrderId) : Prop :=
  ∃ o, b.orders.get? order = some o ∧ o.buyer = u

/-- The order is somebody else's.  An order that is not there is neither owned nor foreign. -/
def Foreign (b : OrderBook) (u : UserId) (order : OrderId) : Prop :=
  ∃ o, b.orders.get? order = some o ∧ o.buyer ≠ u

theorem Owns.not_foreign {order : OrderId} (h : b.Owns u order) : ¬b.Foreign u order := by
  rintro ⟨o, ho, hbuyer⟩
  obtain ⟨p, hp, howner⟩ := h
  rw [ho] at hp
  cases hp
  exact hbuyer howner

/-- Orders, items and contacts of others are as they were, but for the items that are lost. -/
structure OthersKept (b : OrderBook) (u : UserId) (lost : OrderItem → Prop) (b' : OrderBook) :
    Prop where
  orders : b.orders.AgreeOn b'.orders fun o => o.buyer ≠ u
  items : ∀ k i, b.Foreign u i.order →
    (b'.items.get? k = some i ↔ b.items.get? k = some i ∧ ¬lost i)
  contacts : b.contacts.AgreeOn b'.contacts fun x => x.user ≠ u

namespace OthersKept

/-- Nothing is lost where the items of others are the same. -/
theorem of_items (horders : b.orders.AgreeOn b'.orders fun o => o.buyer ≠ u)
    (hitems : ∀ k i, b.Foreign u i.order → (b'.items.get? k = some i ↔ b.items.get? k = some i))
    (hcontacts : b.contacts.AgreeOn b'.contacts fun x => x.user ≠ u) :
    b.OthersKept u (fun _ => False) b' := by
  refine ⟨horders, fun k i hi => ?_, hcontacts⟩
  rw [hitems k i hi, not_false_iff, and_true]

theorem refl (b : OrderBook) (u : UserId) : b.OthersKept u (fun _ => False) b :=
  of_items (.refl _ _) (fun _ _ _ => Iff.rfl) (.refl _ _)

/-- Orders of others stay theirs, so what is theirs after one step is theirs after the next. -/
theorem foreign (h : b.OthersKept u lost b') {order : OrderId} (horder : b.Foreign u order) :
    b'.Foreign u order := by
  obtain ⟨o, ho, hbuyer⟩ := horder
  exact ⟨o, (h.orders order o hbuyer).mpr ho, hbuyer⟩

/-- One change after another: what the first has kept the second keeps. -/
theorem trans (h : b.OthersKept u (fun _ => False) b')
    (h' : b'.OthersKept u (fun _ => False) b'') : b.OthersKept u (fun _ => False) b'' where
  orders := h.orders.trans h'.orders
  items := by
    intro k i hi
    rw [h'.items k i (h.foreign hi), h.items k i hi, and_assoc, and_self_iff]
  contacts := h.contacts.trans h'.contacts

end OthersKept

/-- A call that works for the account, and on nobody else's orders, keeps what others have.  The
calls name the order that they work on, and that it is the account's has to be known from before. -/
theorem Change.othersKept (h : b.Change listed c b') (hb : b.Lawful) (hfor : c.IsFor u)
    (hitems : ∀ order, c.itemsOf? = some order → b.Owns u order)
    (hplace : ∀ order contact, c = .store (.orders (.place order contact)) → b.Owns u order) :
    b.OthersKept u (fun _ => False) b' := by
  have hsame : ∀ k i, b.Foreign u i.order →
      (b'.items.get? k = some i ↔ b.items.get? k = some i) := by
    intro k i hi
    exact h.sameItems hb (fun horder => (hitems _ horder).not_foreign hi) k i rfl
  cases h with
  | same => exact .refl b u
  | @basket buyer now hnone =>
    have hmine : buyer = u := hfor
    refine .of_items (.insert (fun hother => hother hmine) fun o ho => ?_) hsame (.refl _ _)
    rw [hb.order_fresh] at ho
    cases ho
  | insertItem hi =>
    obtain ⟨-, -, -, rfl, rfl⟩ := insertItem_ok hi
    exact .of_items (.refl _ _) hsame (.refl _ _)
  | updateQuantity _ _ => exact .of_items (.refl _ _) hsame (.refl _ _)
  | deleteItems => exact .of_items (.refl _ _) hsame (.refl _ _)
  | @place order contact o ho hbasket hcontact =>
    obtain ⟨p, hp, hmine⟩ := hplace order contact rfl
    rw [ho] at hp
    cases hp
    refine .of_items (.insert (fun hother => hother hmine) fun q hq hother => ?_) hsame (.refl _ _)
    rw [ho] at hq
    cases hq
    exact hother hmine
  | insertContact => cases hfor
  | updateContact _ => cases hfor
  | dropContacts => cases hfor

/-- A new contact is the account's. -/
theorem othersKept_insertContact (hb : b.Lawful) (u : UserId) (a : Address) :
    b.OthersKept u (fun _ => False) (b.insertContact u a).2 := by
  refine .of_items (.refl _ _) (fun _ _ _ => Iff.rfl)
    (.insert (fun hother => hother rfl) fun x hx => ?_)
  have hle := hb.contacts _ x hx
  simp only at hle
  omega

/-- Nobody changes contacts but their owner, whatever identifier is named. -/
theorem othersKept_updateContact (b : OrderBook) (u : UserId) (id : ContactId)
    (patch : AddressInput) : b.OthersKept u (fun _ => False) (b.updateContact u id patch).2 := by
  unfold updateContact
  split
  · exact .refl b u
  · rename_i x hx
    obtain ⟨hthere, huser⟩ := Option.filter_eq_some_iff.mp hx
    have hmine : x.user = u := beq_iff_eq.mp huser
    refine .of_items (.refl _ _) (fun _ _ _ => Iff.rfl)
      (.insert (fun hother => hother hmine) fun y hy => ?_)
    rw [hthere] at hy
    cases hy
    exact not_not_intro hmine

/-- Nobody deletes contacts but their owner; and if every order is that of its contact's owner, no
others' orders lose theirs. -/
theorem othersKept_deleteContacts (hcontact : ∀ id o contact x, b.orders.get? id = some o →
      o.contact = some contact → b.contacts.get? contact = some x → x.user = o.buyer)
    (u : UserId) (ids : List ContactId) :
    b.OthersKept u (fun _ => False) (b.deleteContacts u ids).2 := by
  have hdoomed : ∀ k x, (b.ownContacts u ids).get? k = some x →
      b.contacts.get? k = some x ∧ x.user = u := by
    intro k x hx
    obtain ⟨hthere, htest⟩ := Table.get?_filter_eq_some_iff.mp hx
    exact ⟨hthere, beq_iff_eq.mp (Bool.and_eq_true_iff.mp htest).1⟩
  have hcleared : ∀ id o, b.orders.get? id = some o → o.buyer ≠ u →
      o.cleared (b.ownContacts u ids) = o := by
    intro id o ho hother
    refine if_neg fun hany => ?_
    obtain ⟨contact, hnamed, hgone⟩ := (Option.any_eq_true _ _).mp hany
    obtain ⟨x, hx⟩ := Table.contains_iff.mp hgone
    obtain ⟨hthere, hmine⟩ := hdoomed contact x hx
    exact hother ((hcontact id o contact x ho hnamed hthere).symm.trans hmine)
  refine .of_items ?_ (fun _ _ _ => Iff.rfl) (.filter fun k x hx hother => ?_)
  · intro id o hother
    show ((b.dropContacts _).clearContacts _).orders.get? id = some o ↔ _
    rw [get?_clearContacts, Option.map_eq_some_iff]
    constructor
    · rintro ⟨p, hp, rfl⟩
      rw [(Order.Becomes.cleared p _).buyer] at hother
      rwa [hcleared id p hp hother]
    · intro ho
      exact ⟨o, ho, hcleared id o ho hother⟩
  · rw [Bool.not_eq_true', Table.contains_eq_false_iff, Option.eq_none_iff_forall_ne_some]
    intro y hy
    obtain ⟨hthere, hmine⟩ := hdoomed k y hy
    rw [hx] at hthere
    cases hthere
    exact hother hmine

end OrderBook

/-! ## The whole world -/

namespace World

variable {w w' w'' : World} {u : UserId} {lost : OrderItem → Prop}

/-- Whatever belongs to others than the account is as it was, but for the order items that are
lost. -/
structure OthersKept (w : World) (u : UserId) (lost : OrderItem → Prop) (w' : World) : Prop where
  book : w.store.book.OthersKept u lost w'.store.book
  jobs : w'.jobs.jobs.filter (fun j => j.owner ≠ u) = w.jobs.jobs.filter fun j => j.owner ≠ u
  shops : w.store.catalog.shops.AgreeOn w'.store.catalog.shops fun s => s.owner ≠ u
  /-- Visitors see the same listings of shops that are not the account's. -/
  listings : ∀ id v, (∃ s, w.store.catalog.shops.get? v.shop.id = some s ∧ s.owner ≠ u) →
    (w'.store.catalog.listing? id = some v ↔ w.store.catalog.listing? id = some v)

namespace OthersKept

/-- Nothing is done to the catalog, so shops and listings of others need not be looked at. -/
theorem of_catalog_eq (hbook : w.store.book.OthersKept u lost w'.store.book)
    (hjobs : w'.jobs.jobs.filter (fun j => j.owner ≠ u) = w.jobs.jobs.filter fun j => j.owner ≠ u)
    (hcatalog : w'.store.catalog = w.store.catalog) : w.OthersKept u lost w' where
  book := hbook
  jobs := hjobs
  shops := by
    rw [hcatalog]
    exact .refl _ _
  listings := by
    intro id v _
    rw [hcatalog]

theorem refl (w : World) (u : UserId) : w.OthersKept u (fun _ => False) w :=
  of_catalog_eq (.refl _ u) rfl rfl

theorem trans (h : w.OthersKept u (fun _ => False) w')
    (h' : w'.OthersKept u (fun _ => False) w'') : w.OthersKept u (fun _ => False) w'' where
  book := h.book.trans h'.book
  jobs := h'.jobs.trans h.jobs
  shops := h.shops.trans h'.shops
  listings := by
    intro id v hother
    obtain ⟨s, hs, howner⟩ := hother
    have hthere := (h.shops v.shop.id s howner).mpr hs
    exact (h'.listings id v ⟨s, hthere, howner⟩).trans (h.listings id v ⟨s, hs, howner⟩)

/-- The account submits a job of its own, which comes behind those of others. -/
theorem enqueue (w : World) {j : Job} (hj : j.owner = u) :
    w.OthersKept u (fun _ => False)
      { w with jobs := ((JobCall.enqueue j).step w.jobs w.clock).2 } := by
  refine of_catalog_eq (.refl _ u) ?_ rfl
  simp only [JobCall.step, JobStore.enqueue]
  split
  · rename_i t ht
    split at ht
    · cases ht
    · cases ht
      rw [List.filter_append, List.filter_cons_of_neg (by simp [hj]), List.filter_nil,
        List.append_nil]
  · rfl

end OthersKept

end World

/-! ## Calls that work for a buyer -/

/-- Such a call has one half. -/
theorem Call.IsFor.act {u : UserId} {c : Call} (hc : c.IsFor u) (w : World) :
    w.act c = (w.handle c).map fun r => (r.1, r.2, none) := by
  cases c with
  | store c =>
    cases c with
    | draft c => cases hc
    | contacts c => cases c <;> first | rfl | cases hc
    | _ => rfl
  | _ => rfl

/-- Such a call does nothing to the catalog: it is about orders, jobs, mail or locks. -/
theorem Call.IsFor.catalog_eq {u : UserId} {c : Call} (hc : c.IsFor u) {w w' : World} {r : c.Reply}
    (h : w.handle c = some (r, w')) : w'.store.catalog = w.store.catalog := by
  cases c with
  | store c =>
    cases c with
    | draft c => cases hc
    | catalog c =>
      cases c with
      | listing _ => cases h; rfl
      | _ => cases hc
    | contacts c =>
      cases c with
      | one _ _ => cases h; rfl
      | _ => cases hc
    | orders c =>
      cases h
      cases c with
      | insertItem _ _ _ _ | updateQuantity _ _ _ | place _ _ =>
        simp only [OrderCall.step, Store.tryBook]
        split <;> rfl
      | _ => rfl
  | lock _ =>
    simp only [World.handle] at h
    split at h <;> cases h
    rfl
  | remember _ => cases hc
  | discard => cases hc
  | _ => cases h; rfl

namespace Activity

variable {w w' : World} {u : UserId} {x : Activity}

/-- Who knows that an order is the buyer's, and whose only lock is the buyer's, works on an order of
the buyer. -/
theorem Knows.owns {k : Insight} (h : x.Knows w k) (hlocks : ∀ buyer ∈ x.locks, buyer = u)
    {order : OrderId} (hfact : .basket order ∈ k.facts ∨ .order order ∈ k.facts) :
    w.store.book.Owns u order := by
  obtain ⟨o, ho, hlock⟩ := h.owner hfact
  exact ⟨o, ho, hlocks o.buyer (by simp [hlock])⟩

/-- A call of an activity that works for a buyer keeps what others have.  That the order is the
buyer's is something that the activity knows, for the rules ask for it. -/
theorem Knows.othersKept {k : Insight} (h : x.Knows w k) (hlocks : ∀ buyer ∈ x.locks, buyer = u)
    {c : Call} {next : c.Reply → Program Unit} (hprogram : x.program = .call c next)
    (hb : w.store.book.Lawful) (hc : c.IsFor u) {r : c.Reply}
    (hcall : w.handle c = some (r, w')) : w.OthersKept u (fun _ => False) w' := by
  have hact : w.act c = some (r, w', none) := by rw [hc.act, hcall]; rfl
  have hallowed := h.allowed hprogram
  have hbook : w.store.book.OthersKept u (fun _ => False) w'.store.book := by
    refine (OrderBook.Change.of_act hact).othersKept hb hc (fun order horder => ?_) ?_
    · exact h.owns hlocks (Or.inl (Call.Allowed.itemsOf hallowed horder))
    · rintro order contact rfl
      exact h.owns hlocks (Or.inr hallowed.1)
  by_cases hjob : ∃ d, c = .job d
  · obtain ⟨d, rfl⟩ := hjob
    cases d with
    | enqueue j =>
      cases hcall
      exact .enqueue w hc
    | _ => cases hc
  · have hjobs := (World.frame_of_act hact).jobs fun d hd => hjob ⟨d, hd⟩
    exact .of_catalog_eq hbook (by rw [hjobs]) (hc.catalog_eq hcall)

/-- A program that works for a buyer by the rules keeps what others have, wherever it ends.  The
induction is on the program, with what has been learnt on the way. -/
theorem othersKept_of_run {α : Type} {p : Program α} {a : α} (hcalls : p.Calls (Call.IsFor u))
    (hprogram : x.program = p.bind fun _ => .done ()) (hknows : ∃ k, x.Knows w k)
    (hlocks : ∀ buyer ∈ x.locks, buyer = u) (hb : w.store.book.Lawful)
    (hrun : p.run World.handle w = some (a, w')) : w.OthersKept u (fun _ => False) w' := by
  induction p generalizing x w with
  | done b =>
    cases hrun
    exact .refl _ u
  | call c next ih =>
    obtain ⟨r, v, hcall, hrest⟩ := run_call_eq_some_iff.mp hrun
    obtain ⟨k, hk⟩ := hknows
    obtain ⟨hc, hnext⟩ := hcalls
    have hact : w.act c = some (r, v, none) := by rw [hc.act, hcall]; rfl
    -- What it knows afterwards does not depend on what it is in the middle of, so it may be taken
    -- to be between two calls and to hold a draft.
    let y : Activity := ⟨x.program, none, true, x.locks⟩
    have hy : y.Knows w k := ⟨hk.conduct, hk.locks, hk.facts⟩
    have hallows : y.allows c = true := by
      cases c with
      | unlock buyer =>
        have hmine : k.buyer = some buyer := hk.allowed hprogram
        have hlock : x.locks = [buyer] := by rw [hk.locks, hmine]; rfl
        simp [y, allows, hlock]
      | store d => cases d <;> rfl
      | _ => rfl
    have hnow : y.program = .call c fun r => (next r).bind fun _ => .done () := hprogram
    have hstep : y.Step w v (y.after c ((next r).bind fun _ => .done ()) none) :=
      .call hnow rfl hallows hact
    refine (hk.othersKept hlocks hprogram hb hc hcall).trans ?_
    refine ih r (hnext r) rfl (hy.step hstep hb) (fun buyer hbuyer => ?_) (hstep.turns.lawful hb)
      hrest
    cases c with
    | lock user =>
      rcases List.mem_cons.mp hbuyer with rfl | hold
      · exact hc
      · exact hlocks buyer hold
    | unlock user => exact hlocks buyer (List.mem_of_mem_erase hbuyer)
    | _ => exact hlocks buyer hbuyer

end Activity

/-- Whatever a buyer asks for, and whatever becomes of it, others keep what they have. -/
theorem Errand.othersKept {w w' : World} {u : UserId} (e : Errand) (hb : w.store.book.Lawful)
    {r : Except Refusal e.Result}
    (hrun : (e.service u).run.run World.handle w = some (r, w')) :
    w.OthersKept u (fun _ => False) w' := by
  let p : Program Unit := (e.service u).run.bind fun _ => .done ()
  have hp : p.ThroughServices := .errand u e fun _ => .done ()
  have hcalls := (e.makes_service u).imp fun c hc => hc.1
  exact Activity.othersKept_of_run (x := .start p) hcalls rfl ⟨_, Activity.knows_start hp w⟩ nofun
    hb hrun

end Marketplace
