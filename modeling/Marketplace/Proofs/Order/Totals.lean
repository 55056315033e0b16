import Marketplace.Proofs.Notify.Announced
import Marketplace.Proofs.Order.Views
set_option autoImplicit false

/-!
# Totals

Amounts are kept within 64 bits at every step of a sum, and no step of one is negative.  So whatever
happens, the total of an order that anybody is shown is the exact sum of what its lines come to, or
the greatest number of 64 bits, and so is the total in a message (`Orders.totals_exact`).
-/

namespace Marketplace

/-- The figure is what the lines come to, or the greatest number of 64 bits if they come to more,
and adding them up in any sequence gives the same. -/
def OrderDetail.Tally (lines : List OrderLine) (n : Int) : Prop :=
  n = min (2 ^ 63 - 1) (lines.map fun l => l.quantity * l.priceRrc).sum ∧
    ∀ lines', lines'.Perm lines → sum lines' = n

/-- The total is that of the lines. -/
def OrderDetail.Exact (d : OrderDetail) : Prop := Tally d.lines d.total

/-- Sums of numbers that are not negative can only be cut at the top, and cut at the top they come
to the same in every sequence. -/
theorem OrderDetail.tally_sum {lines : List OrderLine} (h : ∀ l ∈ lines, 0 ≤ l.worth) :
    Tally lines (sum lines) := by
  constructor
  · rw [sum_eq_min h, min_comm]
    rfl
  · intro lines' hperm
    have hworth : worth lines' = worth lines := (hperm.map OrderLine.worth).sum_eq
    rw [sum_eq_min h, sum_eq_min fun l hl => h l (hperm.mem_iff.mp hl), hworth]

/-- The total comes from adding up the lines, none of which is negative. -/
structure OrderDetail.Summed (d : OrderDetail) : Prop where
  total : d.total = sum d.lines
  worth : ∀ l ∈ d.lines, 0 ≤ l.worth

theorem OrderDetail.Summed.exact {d : OrderDetail} (h : d.Summed) : d.Exact := by
  rw [Exact, h.total]
  exact tally_sum h.worth

/-! ## The lines of stored items -/

/-- No amount in the catalog is negative, and every item of an order is one or more pieces. -/
structure World.Priced (w : World) : Prop where
  store : w.store.Sound
  book : w.store.book.Consistent fun _ _ => True

namespace World.Priced

variable {w w' : World} {c : Call} {r : c.Reply} {d : OrderDetail}

/-- Amounts and pieces are what they should be in every reachable pool: the storage takes neither a
listing with a negative price nor an item of no pieces. -/
theorem of_reachable {admitted : Program Unit → Prop} {P : Pool} (h : P.Reachable admitted) :
    P.world.Priced :=
  ⟨h.store.sound, h.book.imp fun _ _ _ => trivial⟩

/-- The line of a stored item is not negative. -/
theorem worth_nonneg (h : w.Priced) {k : OrderItemId} {i : OrderItem} {l : OrderLine}
    (hi : w.store.book.items.get? k = some i) (hl : Store.line? w.store.catalog i = some l) :
    0 ≤ l.worth := by
  obtain ⟨row, hrow, -, hquantity, hprice⟩ := Store.line?_eq_some hl
  have hpieces := (h.book.items k i hi).2.2.1
  have hpriced := (h.store.catalog.listings _ row hrow).2.2.2.2.1
  rw [OrderLine.worth, hquantity, hprice]
  exact Int.mul_nonneg (by omega) hpriced

/-- The detail of some items of an order is the sum of their lines.  An order is shown whole or, to
the owner of a shop, for the items of the shop only, so the items are a parameter here. -/
theorem summed_detail (h : w.Priced) (o : Order) {order : OrderId} {items : List OrderItem}
    (hitems : ∀ i ∈ items, i ∈ w.store.book.itemsOf order) :
    (w.store.book.detail (Store.line? w.store.catalog) o items).Summed := by
  refine ⟨rfl, fun l hl => ?_⟩
  obtain ⟨i, hi, hline⟩ := List.mem_filterMap.mp hl
  obtain ⟨⟨k, hk⟩, -⟩ := OrderBook.mem_itemsOf.mp (hitems i hi)
  exact h.worth_nonneg hk hline

/-- The detail of an order that is asked for by its identifier is summed. -/
theorem summed_detail? (h : w.Priced) {id : OrderId}
    (hd : w.store.book.detail? (Store.line? w.store.catalog) id = some d) :
    d.Summed ∧ d.order.id = id := by
  obtain ⟨o, ho, rfl⟩ := Option.map_eq_some_iff.mp hd
  exact ⟨h.summed_detail o fun i hi => hi, h.book.orders id o ho⟩

/-- So is each one that a buyer is shown, -/
theorem summed_ordersOfBuyer (h : w.Priced) {buyer : UserId}
    (hd : d ∈ w.store.book.ordersOfBuyer (Store.line? w.store.catalog) buyer) : d.Summed := by
  rw [OrderBook.ordersOfBuyer, List.mem_mergeSort, List.mem_map] at hd
  obtain ⟨o, -, rfl⟩ := hd
  exact h.summed_detail o fun i hi => hi

/-- and each one that a shop is shown, though only some of its items are. -/
theorem summed_ordersOfShop (h : w.Priced) {shop : ShopId}
    (hd : d ∈ w.store.book.ordersOfShop (Store.line? w.store.catalog) shop) : d.Summed := by
  rw [OrderBook.ordersOfShop, List.mem_mergeSort, List.mem_filterMap] at hd
  obtain ⟨o, -, hd⟩ := hd
  dsimp only at hd
  split at hd
  · cases hd
  · cases hd
    exact h.summed_detail o fun i hi => (List.mem_filter.mp hi).1

/-- Whatever a call does, amounts and pieces stay what they are. -/
theorem act {m : Option Remainder} (h : w.Priced) (hact : w.act c = some (r, w', m)) :
    w'.Priced := by
  have heffect := Store.Effect.of_act hact
  refine ⟨h.store.step heffect.step, ?_⟩
  generalize w'.store = t at heffect ⊢
  cases heffect with
  | insert hi => exact h.book.insertItem hi trivial
  | beside hb => exact h.book.follows hb
  | _ => exact h.book

/-- Items go and contacts are cleared in the second half of a call, which makes no line negative. -/
theorem finish (h : w.Priced) (m : Remainder) : (m.finish w).Priced := by
  cases m with
  | cascade =>
    exact ⟨(h.store.step (.beside _ _)).step .discard, h.book.follows (.dropUnlisted _ _)⟩
  | clear doomed => exact ⟨h.store.step (.beside _ _), h.book.follows (.clearContacts _ _)⟩

/-- A call with both of its halves is a call, and then its second half. -/
theorem handle (h : w.Priced) (hc : w.handle c = some (r, w')) :
    (∃ v m, w.act c = some (r, v, m)) ∧ w'.Priced := by
  rw [World.handle_eq_act, Option.map_eq_some_iff] at hc
  obtain ⟨⟨a, v, m⟩, hact, heq⟩ := hc
  cases heq
  refine ⟨⟨v, m, hact⟩, ?_⟩
  cases m with
  | none => exact h.act hact
  | some m => exact (h.act hact).finish m

end World.Priced

/-! ## Services and their answers -/

/-- In some state that programs of any kind lead to, the call is answered so. -/
def Call.Answerable (c : Call) (r : c.Reply) : Prop :=
  ∃ (P : Pool) (w : World) (m : Option Remainder),
    P.Reachable (fun _ => True) ∧ P.world.act c = some (r, w, m)

/-- In some world with such amounts and pieces, the call is answered so. -/
def Call.Fair (c : Call) (r : c.Reply) : Prop :=
  ∃ (v w : World) (m : Option Remainder), v.Priced ∧ v.act c = some (r, w, m)

theorem Call.Answerable.fair {c : Call} {r : c.Reply} (h : c.Answerable r) : c.Fair r := by
  obtain ⟨P, w, m, hP, hact⟩ := h
  exact ⟨P.world, w, m, .of_reachable hP, hact⟩

theorem Call.fair_of_handle (v w : World) (c : Call) (r : c.Reply) (hv : v.Priced)
    (hc : v.handle c = some (r, w)) : c.Fair r ∧ w.Priced := by
  obtain ⟨⟨u, m, hact⟩, hw⟩ := hv.handle hc
  exact ⟨⟨v, u, m, hv, hact⟩, hw⟩

namespace Service

variable {α β : Type} {x : Service α} {post : α → Prop}

/-- Whatever the service answers satisfies the condition: where it runs alone in a reachable pool,
and where it runs among any programs, each of its calls answered in some state that they have led
to. -/
structure Gives (x : Service α) (post : α → Prop) : Prop where
  alone : ∀ (P : Pool) (a : α) (w : World), P.Reachable (fun _ => True) →
    x.run.run World.handle P.world = some (.ok a, w) → post a
  among : x.run.Ends Call.Answerable fun r => ∀ a, r = .ok a → post a

/-- Whatever messages the service sends satisfy the condition, where it runs alone in a reachable
pool, and where it runs among any programs. -/
structure Sends (x : Service α) (post : Mail → Prop) : Prop where
  alone : ∀ (P : Pool) (calls : List Call) (rest : Program (Except Refusal α)) (w : World),
    P.Reachable (fun _ => True) → Program.Made World.handle x.run P.world calls rest w →
      ∀ m, .send m ∈ calls → post m
  among : x.run.CallsIf Call.Answerable fun c => ∀ m, c = .send m → post m

/-- Fairly answered, the service answers so. -/
abbrev Answers (x : Service α) (post : α → Prop) : Prop :=
  x.run.Ends Call.Fair fun r => ∀ a, r = .ok a → post a

/-- Fairly answered, the service sends no other messages. -/
abbrev Mails (x : Service α) (post : Mail → Prop) : Prop :=
  x.run.CallsIf Call.Fair fun c => ∀ m, c = .send m → post m

theorem Answers.gives (h : x.Answers post) : x.Gives post where
  alone := fun _ a _ hP hrun =>
    h.of_run_from Call.fair_of_handle (World.Priced.of_reachable hP) hrun a rfl
  among := h.anti fun _ _ hr => hr.fair

theorem Mails.sends {post : Mail → Prop} (h : x.Mails post) : x.Sends post where
  alone := fun _ _ _ _ hP hmade m hm =>
    hmade.of_callsIf Call.fair_of_handle (World.Priced.of_reachable hP) h _ hm m rfl
  among := h.anti fun _ _ hr => hr.fair

theorem answers_pure {a : α} (ha : post a) : Answers (pure a) post := by
  intro b hb
  cases hb
  exact ha

theorem answers_throw (f : Refusal) : Answers (throw f : Service α) post := by
  intro a ha
  cases ha

theorem Answers.bind {f : α → Service β} {Q : α → Prop} {post : β → Prop} (hx : x.Answers Q)
    (hf : ∀ a, Q a → (f a).Answers post) : (x >>= f).Answers post := by
  rw [Answers, Program.bind_exceptT]
  refine Program.Ends.bind hx ?_
  rintro (e | a) ha
  · intro b hb
    cases hb
  · exact hf a (ha a rfl)

theorem Mails.bind {f : α → Service β} {Q : α → Prop} {post : Mail → Prop} (hx : x.Mails post)
    (hanswers : x.Answers Q) (hf : ∀ a, Q a → (f a).Mails post) : (x >>= f).Mails post := by
  rw [Mails, Program.bind_exceptT]
  refine Program.CallsIf.bind hx hanswers ?_
  rintro (e | a) ha
  · trivial
  · exact hf a (ha a rfl)

/-- Where every answer would do, nothing need be known of the service. -/
theorem answers_of_forall (x : Service α) (h : ∀ a, post a) : x.Answers post := by
  show Program.Ends _ _ x.run
  induction x.run with
  | done r => exact fun a _ => h a
  | call c next ih => exact fun r _ => ih r

theorem answers_any (x : Service α) : x.Answers fun _ => True :=
  answers_of_forall x fun _ => trivial

/-- What sends no messages sends no others. -/
theorem mails_of_calls {post : Mail → Prop} (h : x.run.Calls fun c => c.mail? = none) :
    x.Mails post := by
  refine (h.imp fun c hc m hm => ?_).callsIf
  rw [hm] at hc
  cases hc

theorem answers_orders {c : OrderCall} {post : c.Result → Prop}
    (h : ∀ (w : World) (a : c.Result) (s : Store), w.Priced →
      c.step w.store w.clock = (.ok a, s) → post a) : (Service.orders c).Answers post := by
  rintro (f | a) ⟨v, w, m, hv, hact⟩ b hb
  · cases hb
  · cases hb
    simp only [World.act, World.handle, StoreCall.step, Option.map_some, Option.some.injEq,
      Prod.mk.injEq] at hact
    exact h v a _ hv (Prod.ext hact.1 rfl)

theorem Answers.locked {buyer : UserId} (hx : x.Answers post) :
    (Service.locked buyer x).Answers post := by
  intro _ _
  show (x.run.bind fun a => (Program.ask (.unlock buyer)).bind fun _ => .done a).Ends _ _
  exact Program.Ends.bind hx fun a ha _ _ => ha

end Service

namespace Orders

open Service

theorem answers_detail (id : OrderId) : (detail id).Answers OrderDetail.Exact := by
  refine Answers.bind (Q := fun found => ∀ d, found = some d → d.Exact) ?_ fun found hfound => ?_
  · refine answers_orders fun w a s hw hstep d hd => ?_
    cases hstep
    exact (hw.summed_detail? hd).1.exact
  · cases found with
    | none => exact answers_throw _
    | some d => exact answers_pure (hfound d rfl)

theorem answers_basket (buyer : UserId) : (basket buyer).Answers OrderDetail.Exact :=
  Answers.locked ((answers_any _).bind fun o _ => answers_detail o.id)

theorem answers_checkout (buyer : UserId) (order : OrderId) (contact : ContactId) :
    (checkout buyer order contact).Answers fun o => o.order.Exact := by
  rw [checkout_eq]
  refine Answers.locked ((answers_any _).bind fun _ _ => (answers_any _).bind fun _ _ =>
    (answers_any _).bind fun _ _ => (answers_any _).bind fun placed _ => ?_)
  split
  · exact answers_throw _
  · refine (answers_detail order).bind fun d hd => ?_
    exact (answers_any _).bind fun job _ => (answers_any _).bind fun submitted _ => answers_pure hd

theorem answers_get (buyer : UserId) (order : OrderId) :
    (get buyer order).Answers OrderDetail.Exact :=
  (answers_detail order).bind fun _ hd => (answers_any _).bind fun _ _ => answers_pure hd

theorem answers_ofBuyer (buyer : UserId) : (ofBuyer buyer).Answers fun ds => ∀ d ∈ ds, d.Exact := by
  refine answers_orders fun w ds s hw hstep d hd => ?_
  cases hstep
  exact (hw.summed_ordersOfBuyer hd).exact

theorem answers_ofShop (a : Account) : (ofShop a).Answers fun ds => ∀ d ∈ ds, d.Exact := by
  refine (answers_any _).bind fun shop _ => answers_orders fun w ds s hw hstep d hd => ?_
  cases hstep
  exact (hw.summed_ordersOfShop hd).exact

end Orders

/-! ## Totals in messages -/

namespace Notify

open Service

/-- The text lists the lines under the headline, and below them stands what they come to. -/
def Totals (headline : String) (lines : List OrderLine) (text : String) : Prop :=
  ∃ n, OrderDetail.Tally lines n ∧
    text = headline ++ "\n\n" ++ String.join (lines.map lineText) ++ s!"\nTotal: {n}\n"

/-- The message is one to the buyer, with the lines of the order, or one to the owner of a shop,
with the lines of the shop, and has their total. -/
def IsTotalled (d : OrderDetail) (m : Mail) : Prop :=
  Totals s!"Your order {d.order.id} has been placed." d.lines m.body ∨
    ∃ shop : Shop, Totals s!"Order {d.order.id} contains items from {shop.name}."
      (d.lines.filter fun l => l.shop = shop.id) m.body

theorem totals_body {lines : List OrderLine} (h : ∀ l ∈ lines, 0 ≤ l.worth) (headline : String) :
    Totals headline lines (body headline lines) :=
  ⟨_, OrderDetail.tally_sum h, rfl⟩

theorem isTotalled_buyerMail {d : OrderDetail} (h : d.Summed) (address : String) :
    IsTotalled d (buyerMail address d) :=
  Or.inl (totals_body h.worth _)

theorem isTotalled_ownerMail {d : OrderDetail} (h : d.Summed) (address : String) (shop : Shop) :
    IsTotalled d (ownerMail address shop d) :=
  Or.inr ⟨shop, totals_body (fun l hl => h.worth l (List.mem_filter.mp hl).1) _⟩

theorem answers_ownerMails {d : OrderDetail} (h : d.Summed) (ids : List ShopId)
    (seen : List String) :
    (ownerMails d ids seen).Answers fun b => ∀ m ∈ b.mails, IsTotalled d m := by
  induction ids generalizing seen with
  | nil => exact answers_pure nofun
  | cons id ids ih =>
    refine (answers_any _).bind fun shop _ => ?_
    rcases shop with - | shop
    · exact ih seen
    · refine (answers_any _).bind fun owner _ => ?_
      rcases owner with - | owner
      · exact (ih seen).bind fun b hb => answers_pure hb
      · simp only
        split
        · exact ih seen
        · refine (ih _).bind fun b hb => answers_pure fun m hm => ?_
          rcases List.mem_cons.mp hm with rfl | hm
          · exact isTotalled_ownerMail h owner.email shop
          · exact hb m hm

theorem answers_mails {d : OrderDetail} (h : d.Summed) (buyer : UserId) :
    (mails buyer d).Answers fun b => ∀ m ∈ b.mails, IsTotalled d m := by
  refine (answers_any _).bind fun account _ => (answers_ownerMails h _ _).bind fun b hb => ?_
  cases account with
  | none => exact answers_pure hb
  | some a =>
    refine answers_pure fun m hm => ?_
    rcases List.mem_cons.mp hm with rfl | hm
    · exact isTotalled_buyerMail h a.email
    · exact hb m hm

theorem calls_sendAll (ms : List Mail) :
    (sendAll ms).Calls fun c => ∀ m, c = .send m → m ∈ ms := by
  induction ms with
  | nil => trivial
  | cons m ms ih =>
    refine ⟨fun m' hm' => ?_, fun r => ?_⟩
    · cases hm'
      exact List.mem_cons_self
    · refine Program.Calls.bind (p := sendAll ms) (ih.imp fun c hc m' hm' => ?_) fun _ => trivial
      exact List.mem_cons_of_mem _ (hc m' hm')

/-- Whoever is told of an order is told exact totals. -/
theorem mails_order (buyer : UserId) (id : OrderId) :
    (order buyer id).Mails fun m => ∃ d, d.order.id = id ∧ d.Exact ∧ IsTotalled d m := by
  refine Mails.bind (mails_of_calls ⟨rfl, fun _ => trivial⟩)
    (Q := fun found => ∀ d, found = some d → d.Summed ∧ d.order.id = id) ?_ fun found hfound => ?_
  · refine answers_orders fun w a s hw hstep d hd => ?_
    cases hstep
    exact hw.summed_detail? hd
  cases found with
  | none => trivial
  | some d =>
    obtain ⟨hsum, hid⟩ := hfound d rfl
    refine Mails.bind (x := Service.ofExcept _) (mails_of_calls (Service.calls_ofExcept _))
      (answers_any _) fun _ _ => ?_
    refine (mails_of_calls (calls_mails buyer d)).bind (answers_mails hsum buyer) fun b hb => ?_
    have hsent := (calls_sendAll b.mails).imp fun c hc m hm =>
      (⟨d, hid, hsum.exact, hb m (hc m hm)⟩ : ∃ d, d.order.id = id ∧ d.Exact ∧ IsTotalled d m)
    refine Mails.bind (x := ExceptT.lift (sendAll b.mails)) ?_ (answers_any _) fun _ _ => trivial
    exact Program.Calls.callsIf (p := (sendAll b.mails).bind fun x => .done (Except.ok x))
      (hsent.bind fun _ => trivial)

end Notify

/-- Totals are exact as long as 64 bits hold them, and are else the greatest number that does, and
in whatever sequence lines are added up they come to the same.  This is so of every order that the
engine shows, as a basket, when it is placed, alone, or in the list of a buyer or a shop, and of the
lines of every message that tells of an order. -/
theorem Orders.totals_exact :
    (∀ buyer, (basket buyer).Gives OrderDetail.Exact) ∧
      (∀ buyer order contact, (checkout buyer order contact).Gives fun o => o.order.Exact) ∧
        (∀ buyer order, (get buyer order).Gives OrderDetail.Exact) ∧
          (∀ buyer, (ofBuyer buyer).Gives fun ds => ∀ d ∈ ds, d.Exact) ∧
            (∀ a, (ofShop a).Gives fun ds => ∀ d ∈ ds, d.Exact) ∧
              ∀ buyer id, (Notify.order buyer id).Sends fun m =>
                ∃ d, d.order.id = id ∧ d.Exact ∧ Notify.IsTotalled d m :=
  ⟨fun buyer => (answers_basket buyer).gives,
    fun buyer order contact => (answers_checkout buyer order contact).gives,
    fun buyer order => (answers_get buyer order).gives,
    fun buyer => (answers_ofBuyer buyer).gives, fun a => (answers_ofShop a).gives,
    fun buyer id => (Notify.mails_order buyer id).sends⟩

/-- A phone of the greatest price is imported, and a buyer puts two into the basket. -/
def dearPhones : List (Program Unit) :=
  [(Importer.apply ⟨"Svyaznoy", [⟨⟨224⟩, "Phones"⟩],
      [⟨4216292, ⟨224⟩, "Phone", "x", 110, 2 ^ 63 - 1, 14, []⟩]⟩ ⟨1⟩).run.bind fun _ => .done (),
    (Orders.add ⟨7⟩ [⟨some (.int 1), some (.int 2)⟩]).run.bind fun _ => .done ()]

/-- The basket comes to more than 64 bits hold. -/
theorem Orders.totals_exact_of_dearPhones : ∃ (P : Pool) (d : OrderDetail) (w : World),
    P.Reachable (fun _ => True) ∧
      (basket ⟨7⟩).run.run World.handle P.world = some (.ok d, w) ∧
        (d.lines.map fun l => l.quantity * l.priceRrc) = [2 * (2 ^ 63 - 1)] ∧
          d.total = 2 ^ 63 - 1 ∧ d.Exact := by
  have hplay : (Pool.play (List.replicate 11 0 ++ List.replicate 5 1)
      ⟨.start ⟨0, 0⟩ 3, dearPhones.map .start⟩).any (fun P =>
        ((basket ⟨7⟩).run.run World.handle P.world).any fun r =>
          r.1.toOption.any fun d => decide ((d.lines.map fun l => l.quantity * l.priceRrc) =
            [2 * (2 ^ 63 - 1)] ∧ d.total = 2 ^ 63 - 1)) = true := by
    decide +kernel
  obtain ⟨P, hP, hfacts⟩ := (Option.any_eq_true _ _).mp hplay
  obtain ⟨d, w, hrun, hfigures⟩ := Program.exists_of_any_ok hfacts
  obtain ⟨hlines, htotal⟩ := of_decide_eq_true hfigures
  have hreach := (Pool.Reachable.begin ⟨0, 0⟩ 3 (fun p _ => trivial)).play hP
  exact ⟨P, d, w, hreach, hrun, hlines, htotal, (totals_exact.1 ⟨7⟩).alone P d w hreach hrun⟩

end Marketplace
