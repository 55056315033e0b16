import Marketplace.Proofs.Import.Atomicity
import Marketplace.Proofs.Import.Effect
set_option autoImplicit false

/-!
# Order items and their listings

`Orders.add` reads a listing and then adds an item for it; imports may replace the shop's listings
at any time in between.  An identifier that has been read once never gets another shop, because
identifiers are not given twice, so every item has the shop of its listing as long as there is one;
and the storage sees to it that there is one.
-/

namespace Marketplace

/-! ## Programs that add items only for listings that they have read -/

namespace Call

/-- The listing and the shop of the item that the call is to add.  The call names both, and the
storage checks only that the listing is there. -/
def insertion? : Call → Option (ListingId × ShopId)
  | .store (.orders (.insertItem _ listing shop _)) => some (listing, shop)
  | _ => none

/-- The listing and its shop that the call has read.  This is the only call that tells a service the
shop of a listing. -/
def seen? : (c : Call) → c.Reply → Option (ListingId × ShopId)
  | .store (.catalog (.listing _)), .ok (some v) => some (v.id, v.shop.id)
  | _, _ => none

end Call

namespace Program

variable {α β ε : Type} {known known' : ListingId → ShopId → Prop}

/-- The program adds items only for known listings, each for its shop; what it has read it knows.
The knowledge grows along the program, so a reading counts for all that comes after it. -/
def AddsKnown : Program α → (ListingId → ShopId → Prop) → Prop
  | done _, _ => True
  | call c next, known =>
    (∀ listing shop, c.insertion? = some (listing, shop) → known listing shop) ∧
      ∀ r, (next r).AddsKnown fun listing shop =>
        known listing shop ∨ c.seen? r = some (listing, shop)

namespace AddsKnown

/-- Who knows more may add more. -/
theorem imp {p : Program α} (hp : p.AddsKnown known)
    (hknown : ∀ listing shop, known listing shop → known' listing shop) : p.AddsKnown known' := by
  induction p generalizing known known' with
  | done a => trivial
  | call c next ih =>
    refine ⟨fun listing shop hc => hknown _ _ (hp.1 listing shop hc), fun r => ?_⟩
    exact ih r (hp.2 r) fun listing shop h => h.imp (hknown listing shop) id

theorem bind {p : Program α} {f : α → Program β} (hp : p.AddsKnown known)
    (hf : ∀ a, (f a).AddsKnown known) : (p.bind f).AddsKnown known := by
  induction p generalizing known with
  | done a => exact hf a
  | call c next ih =>
    exact ⟨hp.1, fun r => ih r (hp.2 r) fun a => (hf a).imp fun _ _ => Or.inl⟩

theorem exceptT_bind {x : ExceptT ε Program α} {f : α → ExceptT ε Program β}
    (hx : x.run.AddsKnown known) (hf : ∀ a, (f a).run.AddsKnown known) :
    (x >>= f).run.AddsKnown known := by
  rw [bind_exceptT]
  refine hx.bind ?_
  rintro (e | a)
  · trivial
  · exact hf a

/-- A call that adds no item. -/
theorem call {c : Call} {next : c.Reply → Program α} (hc : c.insertion? = none)
    (hnext : ∀ r, (next r).AddsKnown fun listing shop =>
      known listing shop ∨ c.seen? r = some (listing, shop)) :
    (Program.call c next).AddsKnown known := by
  refine ⟨fun listing shop hadds => ?_, hnext⟩
  rw [hc] at hadds
  cases hadds

end AddsKnown

end Program

namespace Orders

variable {known : ListingId → ShopId → Prop}

theorem addsKnown_ofExcept {α : Type} (x : Except Refusal α) :
    (Service.ofExcept x).run.AddsKnown known := by
  cases x <;> trivial

/-- One entry: the listing is read, and the item is added for the listing and the shop that were
read. -/
theorem addsKnown_addItem (basket : OrderId) (index : Nat) (input : AddInput) :
    (addItem basket index input).run.AddsKnown known := by
  refine .exceptT_bind (addsKnown_ofExcept _) fun item => ?_
  refine .call rfl ?_
  rintro (f | - | v)
  · trivial
  · trivial
  · simp only [Program.bind, ExceptT.bindCont, Except.mapError]
    split
    · trivial
    · refine ⟨?_, fun r => addsKnown_ofExcept _⟩
      intro listing shop hc
      exact Or.inr hc

theorem addsKnown_addEach (basket : OrderId) (index : Nat) (inputs : List AddInput) :
    (addEach basket index inputs).run.AddsKnown known := by
  induction inputs generalizing index with
  | nil => trivial
  | cons input inputs ih =>
    refine .exceptT_bind (addsKnown_addItem basket index input) fun item => ?_
    exact .exceptT_bind (ih (index + 1)) fun items => trivial

theorem addsKnown_locked {α : Type} {buyer : UserId} {x : Service α}
    (hx : x.run.AddsKnown known) : (Service.locked buyer x).run.AddsKnown known := by
  refine .call rfl fun _ => ?_
  show (x.run.bind fun a => (Program.ask (.unlock buyer)).bind fun _ => .done a).AddsKnown _
  exact .bind (hx.imp fun _ _ => Or.inl) fun a => .call rfl fun _ => trivial

/-- Adding entries to a basket adds items for nothing but listings that have been read, each entry
its own. -/
theorem addsKnown_add (buyer : UserId) (inputs : List AddInput) :
    (add buyer inputs).run.AddsKnown known := by
  simp only [add]
  split
  · trivial
  · refine addsKnown_locked (.exceptT_bind ?_ fun basket => addsKnown_addEach _ _ _)
    exact .call rfl fun r => trivial

end Orders

/-- The program makes any calls, but items are added by `Orders.add` alone, as often as it likes and
for any buyers. -/
inductive Program.AddsByService {α : Type} : Program α → Prop
  | done (a : α) : AddsByService (.done a)
  | call {c : Call} {next : c.Reply → Program α} (hc : c.insertion? = none)
      (hnext : ∀ r, AddsByService (next r)) : AddsByService (.call c next)
  | add (buyer : UserId) (inputs : List AddInput)
      {next : Except Refusal (List OrderItem) → Program α} (hnext : ∀ r, AddsByService (next r)) :
    AddsByService ((Orders.add buyer inputs).run.bind next)

namespace Program.AddsByService

variable {α β : Type}

theorem bind {p : Program α} {f : α → Program β} (hp : p.AddsByService)
    (hf : ∀ a, (f a).AddsByService) : (p.bind f).AddsByService := by
  induction hp with
  | done a => exact hf a
  | call hc _ ih => exact call hc fun r => ih r
  | add buyer inputs _ ih =>
    rw [Program.bind_assoc]
    exact add buyer inputs fun r => ih r

theorem of_calls {p : Program α} (hp : p.Calls fun c => c.insertion? = none) :
    p.AddsByService := by
  induction p with
  | done a => exact done a
  | call c next ih => exact call hp.1 fun r => ih r (hp.2 r)

theorem addsKnown {p : Program α} (hp : p.AddsByService)
    (known : ListingId → ShopId → Prop) : p.AddsKnown known := by
  induction hp generalizing known with
  | done a => trivial
  | call hc _ ih => exact .call hc fun r => ih r _
  | add buyer inputs _ ih => exact .bind (Orders.addsKnown_add buyer inputs) fun r => ih r known

end Program.AddsByService

/-- Imports add no items.  They take some away, but through the commit. -/
theorem Importer.addsByService_apply (list : PriceList) (user : UserId) :
    (apply list user).run.AddsByService := by
  refine .of_calls ((calls_apply list user).imp ?_)
  rintro c ((rfl | hc | rfl) | rfl)
  · rfl
  · cases c with
    | store c =>
      cases c with
      | draft c => rfl
      | _ => exact hc.elim
    | _ => exact hc.elim
  · rfl
  · rfl

/-! ## Listings that never get another shop -/

/-- The identifier has been given, and whatever listing it leads to in the catalog or in the draft
is the shop's. -/
def Store.Vouches (s : Store) (listing : ListingId) (shop : ShopId) : Prop :=
  listing.value ≤ s.counters.listing ∧
    ∀ c, s.Has c → ∀ l, c.listings.get? listing = some l → l.shop = shop

namespace Store

variable {s t : Store} {listing : ListingId} {shop : ShopId}

/-- A draft has no other listing under an identifier of the catalog: it has kept it or dropped
it. -/
theorem Sound.draft_listing (h : s.Sound) {c : Catalog} (hc : s.draft = some c) {l l' : ListingData}
    (hl : s.catalog.listings.get? listing = some l) (hl' : c.listings.get? listing = some l') :
    l' = l := by
  obtain ⟨n, hn, hevolves⟩ := h.draft c hc
  rcases hevolves.listings listing l' hl' with hold | hnew
  · rw [hl] at hold
    exact (Option.some.inj hold).symm
  · have hgiven := (hn.listings listing l hl).1
    simp only at hnew
    omega

/-- What a visitor is shown is vouched for, since it is shown from the published catalog. -/
theorem Sound.vouches (h : s.Sound) {v : ListingView} (hv : s.catalog.listing? listing = some v) :
    s.Vouches v.id v.shop.id := by
  obtain ⟨l, hl, hview⟩ := Option.bind_eq_some_iff.mp hv
  obtain ⟨hid, hshop⟩ := h.catalog.view_eq hl hview
  rw [hid, hshop]
  refine ⟨(h.catalog.listings listing l hl).1, ?_⟩
  rintro c (rfl | hc) l' hl'
  · rw [hl] at hl'
    rw [Option.some.inj hl']
  · rw [h.draft_listing hc hl hl']

/-- No step of the store takes a voucher back.  Identifiers of listings are not given twice, so that
a listing that is gone leaves its identifier to none. -/
theorem Vouches.step (hv : s.Vouches listing shop) (h : s.Sound) (hst : s.Step t) :
    t.Vouches listing shop := by
  obtain ⟨hgiven, hshop⟩ := hv
  cases h.moves hst with
  | keep hcatalog hcounters hdraft =>
    refine ⟨hcounters ▸ hgiven, ?_⟩
    rintro c (rfl | hc)
    · exact hshop _ (Or.inl hcatalog)
    · rcases hdraft c hc with hold | rfl
      · exact hshop c (Or.inr hold)
      · exact hshop _ (Or.inl rfl)
  | accept hnone ht =>
    subst ht
    refine ⟨hgiven, ?_⟩
    rintro c (rfl | hc)
    · exact hshop s.catalog (Or.inl rfl)
    · exact hshop c (Or.inr hc)
  | @edit d e hs ht hevolves =>
    rw [hs] at hgiven hshop
    subst ht
    refine ⟨Int.le_trans hgiven hevolves.counters.listing, ?_⟩
    rintro c (rfl | hc) l hl
    · exact hshop _ (Or.inl rfl) l hl
    · cases hc
      rcases hevolves.listings listing l hl with hold | hnew
      · exact hshop _ (Or.inr rfl) l hold
      · exact absurd hgiven (Int.not_le.mpr hnew)
  | publish hs hcatalog hcounters hdraft =>
    refine ⟨hcounters ▸ hgiven, ?_⟩
    rintro c (rfl | hc)
    · exact hshop _ (Or.inr (hcatalog ▸ hs))
    · rw [hdraft c hc]
      exact hshop _ (Or.inr hs)

end Store

/-! ## What programs that add items by service alone come to -/

/-- A call that shows a listing vouches for it. -/
theorem World.vouches_of_seen {w w' : World} {c : Call} {r : c.Reply} {m : Option Remainder}
    (hw : w.store.Sound) (hact : w.act c = some (r, w', m)) {listing : ListingId} {shop : ShopId}
    (hseen : c.seen? r = some (listing, shop)) : w.store.Vouches listing shop := by
  unfold Call.seen? at hseen
  split at hseen
  · rename_i id v
    cases hseen
    simp only [act, handle, StoreCall.step, CatalogCall.step, Option.map_some,
      Option.some.injEq, Prod.mk.injEq, Except.ok.injEq] at hact
    exact hw.vouches hact.1
  · cases hseen

namespace Pool

variable {P : Pool}

/-- As long as items are added by service alone, every item is vouched for, and programs know
nothing that is not. -/
theorem Reachable.vouched (h : P.Reachable Program.AddsByService) :
    P.world.store.book.Consistent P.world.store.Vouches ∧
      ∀ a ∈ P.activities, a.program.AddsKnown P.world.store.Vouches := by
  induction h with
  | start clock retention => exact ⟨.empty, by simp⟩
  | step hP hst ih =>
    have hsound := hP.store.sound
    obtain ⟨hbook, hprograms⟩ := ih
    cases hst with
    | start hp =>
      refine ⟨hbook, fun a ha => ?_⟩
      rcases List.mem_append.mp ha with ha | ha
      · exact hprograms a ha
      · rw [List.mem_singleton.mp ha]
        exact hp.addsKnown _
    | environment clock files => exact ⟨hbook, hprograms⟩
    | @move w w' a a' as bs ha =>
      have hkeeps : ∀ listing shop, w.store.Vouches listing shop →
          w'.store.Vouches listing shop := by
        intro listing shop hv
        exact (ha.store_invariant (I := fun s => s.Sound ∧ s.Vouches listing shop)
          (fun s t hs hst => ⟨hs.1.step hst, hs.2.step hs.1 hst⟩) ⟨hsound, hv⟩).2
      have hprogram := hprograms a (by simp)
      constructor
      · refine ha.consistent (hbook.imp hkeeps) ?_
        intro order listing shop quantity next hcall _
        rw [hcall] at hprogram
        exact hkeeps _ _ (hprogram.1 listing shop rfl)
      · intro x hx
        have hother : x ∈ as ∨ x ∈ bs → x.program.AddsKnown w'.store.Vouches := fun hx =>
          (hprograms x (by rcases hx with hx | hx <;> simp [hx])).imp hkeeps
        rcases List.mem_append.mp hx with hx | hx
        · exact hother (Or.inl hx)
        · rcases List.mem_cons.mp hx with rfl | hx
          · cases ha with
            | call hcall hwhole hallows hact =>
              rw [hcall] at hprogram
              refine (hprogram.2 _).imp fun listing shop hknown => hkeeps _ _ ?_
              exact hknown.elim id (World.vouches_of_seen hsound hact)
            | @finish m _ => cases m <;> exact hprogram.imp hkeeps
            | drop _ => trivial
          · exact hother (Or.inr hx)

end Pool

/-! ## Lines of orders -/

/-- The stored item that a line of an order stands for.  Lines are made of items and listings, and
this turns them back, which is how lists of lines are compared with what is stored. -/
def OrderLine.item (order : OrderId) (l : OrderLine) : OrderItem :=
  ⟨l.id, order, l.listing, l.shop, l.quantity⟩

/-- An item whose listing is there, with its shop, has a line. -/
theorem Catalog.Coherent.exists_line {c : Catalog} {n : CatalogCounters} (h : c.Coherent n)
    {i : OrderItem} {l : ListingData} (hl : c.listings.get? i.listing = some l)
    (hshop : l.shop = i.shop) :
    ∃ line, Store.line? c i = some line ∧ line.item i.order = i := by
  obtain ⟨-, hproduct, hshops, -⟩ := h.listings _ l hl
  obtain ⟨p, hp⟩ := Table.contains_iff.mp hproduct
  obtain ⟨s, hs⟩ := Table.contains_iff.mp hshops
  rw [hshop] at hs
  refine ⟨⟨i.id, i.listing, i.shop, s.name, p.name, l.model, i.quantity, l.priceRrc⟩, ?_, rfl⟩
  simp only [Store.line?, hl, hp, hs, Option.bind_some, Option.map_some]

namespace OrderBook

variable {b : OrderBook} {line? : OrderItem → Option OrderLine}

/-- The items that have lines are shown with them, in the same sequence, and the others are left
out. -/
theorem lines_item {order : OrderId} {items : List OrderItem} {p : OrderItem → Bool}
    (hline : ∀ i ∈ items, p i = true → ∃ l, line? i = some l ∧ l.item order = i)
    (hnone : ∀ i ∈ items, p i = false → line? i = none) :
    (items.filterMap line?).map (OrderLine.item order) = items.filter p := by
  induction items with
  | nil => rfl
  | cons i items ih =>
    have hrest := ih (fun j hj => hline j (by simp [hj])) fun j hj => hnone j (by simp [hj])
    cases hi : p i with
    | true =>
      obtain ⟨l, hl, hitem⟩ := hline i (by simp) hi
      rw [List.filterMap_cons_some hl, List.map_cons, hitem, hrest, List.filter_cons_of_pos hi]
    | false =>
      rw [List.filterMap_cons_none (hnone i (by simp) hi), hrest,
        List.filter_cons_of_neg (by rw [hi]; exact Bool.false_ne_true)]

/-- Where every item has a line, an order is shown with a line for each of the given items. -/
theorem detail_items {o : Order} {order : OrderId} {items : List OrderItem}
    (horder : ∀ i ∈ items, i.order = order)
    (hline : ∀ i ∈ items, ∃ line, line? i = some line ∧ line.item i.order = i) :
    (b.detail line? o items).lines.map (OrderLine.item order) = items := by
  have hall : (items.filterMap line?).map (OrderLine.item order) = items.filter fun _ => true :=
    lines_item (fun i hi _ => horder i hi ▸ hline i hi) fun _ _ hfalse => nomatch hfalse
  rwa [List.filter_eq_self.mpr fun _ _ => rfl] at hall

/-- The same for those items of an order that a test lets pass, for shops see a part of an order
only. -/
theorem detail_filter (hline : ∀ k i, b.items.get? k = some i →
      ∃ line, line? i = some line ∧ line.item i.order = i)
    (o : Order) (order : OrderId) (p : OrderItem → Bool) :
    (b.detail line? o ((b.itemsOf order).filter p)).lines.map (OrderLine.item order) =
      (b.itemsOf order).filter p := by
  have hitem : ∀ i ∈ (b.itemsOf order).filter p,
      (∃ k, b.items.get? k = some i) ∧ i.order = order :=
    fun i hi => mem_itemsOf.mp (List.mem_filter.mp hi).1
  refine detail_items (fun i hi => (hitem i hi).2) fun i hi => ?_
  obtain ⟨⟨k, hk⟩, -⟩ := hitem i hi
  exact hline k i hk

/-- The same for all items of an order. -/
theorem detail_itemsOf (hline : ∀ k i, b.items.get? k = some i →
      ∃ line, line? i = some line ∧ line.item i.order = i)
    (o : Order) (order : OrderId) :
    (b.detail line? o (b.itemsOf order)).lines.map (OrderLine.item order) = b.itemsOf order := by
  have hall := detail_filter hline o order fun _ => true
  rwa [List.filter_eq_self.mpr fun _ _ => rfl] at hall

end OrderBook

namespace Pool

variable {P : Pool}

/-- Unless a commit is between its halves, every order item belongs to an order, is at least one
piece, and stands for a listing of the catalog that is its shop's; so whoever reads an order, alone,
among the buyer's or among the shop's, is shown each of its items. -/
theorem Reachable.items_listed (h : P.Reachable Program.AddsByService) (hquiet : P.Quiet) :
    let s := P.world.store
    (∀ k i, s.book.items.get? k = some i →
      s.book.orders.contains i.order = true ∧ 1 ≤ i.quantity ∧
        ∃ l, s.catalog.listings.get? i.listing = some l ∧ l.shop = i.shop) ∧
      (∀ id d, s.book.detail? (Store.line? s.catalog) id = some d →
        d.order.id = id ∧ d.lines.map (OrderLine.item id) = s.book.itemsOf id) ∧
      (∀ buyer, ∀ d ∈ s.book.ordersOfBuyer (Store.line? s.catalog) buyer,
        d.lines.map (OrderLine.item d.order.id) = s.book.itemsOf d.order.id) ∧
      ∀ shop, ∀ d ∈ s.book.ordersOfShop (Store.line? s.catalog) shop,
        d.lines.map (OrderLine.item d.order.id) =
          (s.book.itemsOf d.order.id).filter fun i => i.shop == shop := by
  intro s
  have hcatalog := h.store.sound.catalog
  have hlisted : ∀ k i, s.book.items.get? k = some i →
      ∃ l, s.catalog.listings.get? i.listing = some l ∧ l.shop = i.shop := by
    intro k i hi
    obtain ⟨-, -, -, hthere⟩ := h.book.items k i hi
    obtain ⟨-, -, -, -, hshop⟩ := h.vouched.1.items k i hi
    obtain ⟨l, hl⟩ := Table.contains_iff.mp (hthere hquiet)
    exact ⟨l, hl, hshop _ (Or.inl rfl) l hl⟩
  have hline : ∀ k i, s.book.items.get? k = some i →
      ∃ line, Store.line? s.catalog i = some line ∧ line.item i.order = i := by
    intro k i hi
    obtain ⟨l, hl, hshop⟩ := hlisted k i hi
    exact hcatalog.exists_line hl hshop
  refine ⟨?_, ?_, ?_, ?_⟩
  · intro k i hi
    obtain ⟨-, horder, hquantity, -⟩ := h.book.items k i hi
    exact ⟨horder, hquantity, hlisted k i hi⟩
  · intro id d hd
    obtain ⟨o, ho, rfl⟩ := Option.map_eq_some_iff.mp hd
    exact ⟨h.book.orders id o ho, OrderBook.detail_itemsOf hline o id⟩
  · intro buyer d hd
    obtain ⟨o, -, rfl⟩ := List.mem_map.mp (List.mem_mergeSort.mp hd)
    exact OrderBook.detail_itemsOf hline o o.id
  · intro shop d hd
    obtain ⟨o, -, ho⟩ := List.mem_filterMap.mp (List.mem_mergeSort.mp hd)
    dsimp only at ho
    split at ho
    · cases ho
    · cases ho
      exact OrderBook.detail_filter hline o o.id fun i => i.shop == shop

/-- Two shops import a phone each, and a buyer puts the first one into the basket. -/
def phoneTrade : List (Program Unit) :=
  [(Importer.apply (Importer.phoneList "Svyaznoy") ⟨1⟩).run.bind fun _ => .done (),
    (Orders.add ⟨7⟩ [⟨some (.int 1), some (.int 3)⟩]).run.bind fun _ => .done (),
    (Importer.apply (Importer.phoneList "Euroset") ⟨2⟩).run.bind fun _ => .done ()]

/-- The steps that the three programs make in turn: the second import is committed just between the
reading of the first shop's listing and the adding of the item. -/
def phoneSteps : List Nat :=
  List.replicate 13 0 ++ List.replicate 3 1 ++ List.replicate 13 2 ++ List.replicate 2 1

/-- The item is then in the basket, stands for a listing, and is shown. -/
theorem Reachable.items_listed_in_phoneTrade : ∃ (P : Pool) (i : OrderItem) (l : ListingData)
    (d : OrderDetail), P.Reachable Program.AddsByService ∧ P.Quiet ∧
      P.world.store.book.items.get? ⟨1⟩ = some i ∧
      P.world.store.catalog.listings.get? i.listing = some l ∧ l.shop = i.shop ∧
      P.world.store.book.detail? (Store.line? P.world.store.catalog) ⟨1⟩ = some d ∧
      d.lines.map (OrderLine.item ⟨1⟩) = [i] := by
  have hadmitted : ∀ p ∈ phoneTrade, p.AddsByService := by
    intro p hp
    simp only [phoneTrade, List.mem_cons, List.not_mem_nil, or_false] at hp
    rcases hp with rfl | rfl | rfl
    · exact (Importer.addsByService_apply _ _).bind fun _ => .done ()
    · exact .add _ _ fun _ => .done ()
    · exact (Importer.addsByService_apply _ _).bind fun _ => .done ()
  have hplay : (Pool.play phoneSteps ⟨.start ⟨0, 0⟩ 3, phoneTrade.map .start⟩).any (fun P =>
      decide (P.world.store.draft = none ∧
        P.world.store.book.items.get? ⟨1⟩ = some ⟨⟨1⟩, ⟨1⟩, ⟨1⟩, ⟨1⟩, 3⟩ ∧
        P.world.store.book.itemsOf ⟨1⟩ = [⟨⟨1⟩, ⟨1⟩, ⟨1⟩, ⟨1⟩, 3⟩])) = true := by
    decide +kernel
  obtain ⟨P, hP, hfacts⟩ := (Option.any_eq_true _ _).mp hplay
  obtain ⟨hdraft, hi, hitems⟩ := of_decide_eq_true hfacts
  have hreach := (Reachable.begin ⟨0, 0⟩ 3 hadmitted).play hP
  have hquiet := hreach.orderly.quiet hdraft
  obtain ⟨hlisted, hdetail, -⟩ := hreach.items_listed hquiet
  obtain ⟨horder, -, l, hl, hshop⟩ := hlisted _ _ hi
  obtain ⟨o, ho⟩ := Table.contains_iff.mp horder
  have hd : P.world.store.book.detail? (Store.line? P.world.store.catalog) ⟨1⟩ = some _ :=
    Option.map_eq_some_iff.mpr ⟨o, ho, rfl⟩
  obtain ⟨-, hlines⟩ := hdetail _ _ hd
  exact ⟨P, _, l, _, hreach, hquiet, hi, hl, hshop, hd, hlines.trans hitems⟩

end Pool

end Marketplace
