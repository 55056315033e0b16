import Marketplace.Proofs.Notify.Letters
import Marketplace.Proofs.Order.Errand
set_option autoImplicit false

/-!
# Telling people of an order

Whom telling people of an order tries to reach, and what it says it has done (`Notify.Told`):
whoever cannot be reached keeps nobody else from being tried.
-/

namespace Marketplace

open Program

/-- The message that the call tries to send. -/
def Call.mail? : Call → Option Mail
  | .send m => some m
  | _ => none

/-! ## The outbox -/

namespace Outbox

/-- A message to the address is not sent. -/
def fails (b : Outbox) (address : String) : Bool := b.closed || b.unreachable.contains address

/-- The outbox after these messages have been tried. -/
def trying (b : Outbox) (ms : List Mail) : Outbox :=
  { b with sent := b.sent ++ ms.filter fun m => !b.fails m.recipient }

theorem send_of_fails {b : Outbox} {m : Mail} (h : b.fails m.recipient = true) :
    ∃ f, b.send m = (.error f, b) := by
  unfold send
  exact ⟨_, if_pos h⟩

theorem send_of_not_fails {b : Outbox} {m : Mail} (h : b.fails m.recipient = false) :
    b.send m = (.ok (), { b with sent := b.sent ++ [m] }) := by
  unfold send
  exact if_neg (by rw [← fails, h]; exact Bool.false_ne_true)

theorem trying_cons (b : Outbox) (m : Mail) (ms : List Mail) :
    b.trying (m :: ms) = (b.send m).2.trying ms := by
  cases h : b.fails m.recipient with
  | true =>
    obtain ⟨f, hsend⟩ := send_of_fails h
    rw [hsend, trying, List.filter_cons_of_neg (by simp [h])]
    rfl
  | false =>
    rw [send_of_not_fails h, trying, List.filter_cons_of_pos (by simp [h])]
    simp only [trying, fails, List.append_assoc, List.singleton_append]

end Outbox

namespace Notify

variable {w : World} {d : OrderDetail} {ids : List ShopId} {seen : List String} {ms : List Mail}
  {id : OrderId} {buyer : UserId}

/-! ## Writing the messages -/

/-- Writing the messages to the owners does not change anything. -/
theorem exists_run_ownerMails {n : CatalogCounters} (hc : w.store.catalog.Coherent n)
    (hnamed : ∀ l ∈ d.lines, l.Named w.store.catalog)
    (hthere : ∀ id ∈ ids, w.store.catalog.shops.contains id = true)
    (hids : ids.Pairwise fun a b => a.value < b.value) :
    ∃ shops b, (ownerMails d ids seen).run.run World.handle w = some (.ok b, w) ∧
      Covers w.store d ids seen shops b := by
  induction ids generalizing seen with
  | nil => exact ⟨[], ⟨[], 0⟩, rfl, .nil⟩
  | cons id ids ih =>
    obtain ⟨hfirst, hrest⟩ := List.pairwise_cons.mp hids
    replace ih := fun seen => @ih seen (fun id hid => hthere id (List.mem_cons_of_mem _ hid)) hrest
    obtain ⟨shop, hshop⟩ := Table.contains_iff.mp (hthere id List.mem_cons_self)
    have hfound :
        (Service.catalog (.shop id)).run.run World.handle w = some (.ok (some shop), w) := by
      rw [← hshop]
      rfl
    have haccount : (Service.account shop.owner).run.run World.handle w =
        some (.ok (w.store.accounts.get? shop.owner), w) := rfl
    rw [ownerMails, run_bind_of_ok hfound]
    simp only
    rw [run_bind_of_ok haccount]
    cases howner : w.store.accounts.get? shop.owner with
    | none =>
      have hemail : ownerEmail? w.store id = none := by
        simp only [ownerEmail?, hshop, howner, Option.bind_some, Option.map_none]
      obtain ⟨shops, b, hrun, hcovers⟩ := ih seen
      exact ⟨shops, b.skip, run_bind_of_ok hrun, hcovers.skip hemail⟩
    | some owner =>
      have hemail : ownerEmail? w.store id = some owner.email := by
        simp only [ownerEmail?, hshop, howner, Option.bind_some, Option.map_some]
      by_cases hseen : owner.email ∈ seen
      · obtain ⟨shops, b, hrun, hcovers⟩ := ih seen
        refine ⟨shops, b, ?_, hcovers.pass hemail hseen⟩
        simp only [List.contains_iff_mem.mpr hseen, if_true]
        exact hrun
      · obtain ⟨shops, b, hrun, hcovers⟩ := ih (owner.email :: seen)
        have hletter := ownerLetter_ownerMail hc hnamed hshop howner
        refine ⟨id :: shops, b.add (ownerMail owner.email shop d), ?_,
          hcovers.add hletter rfl hseen hfirst⟩
        simp only [List.contains_iff_mem, hseen, if_false]
        exact run_bind_of_ok hrun

/-- Those who cannot be told, the buyer and the owners of shops in the order. -/
def untold (s : Store) (buyer : UserId) (d : OrderDetail) : Nat :=
  (if (s.accounts.get? buyer).isNone then 1 else 0) +
    ((d.lines.map (·.shop)).toFinset.filter fun id => (ownerEmail? s id).isNone).card

/-- Writing the messages of an order does not change anything: there are the buyer's and the
owners', and whoever is not known is counted. -/
theorem exists_run_mails (hs : w.store.Reachable) (hnamed : ∀ l ∈ d.lines, l.Named w.store.catalog)
    (buyer : UserId) :
    ∃ toBuyer owners, (mails buyer d).run.run World.handle w =
        some (.ok ⟨toBuyer ++ owners, untold w.store buyer d⟩, w) ∧
      BuyerLetters w.store buyer d toBuyer ∧ OwnerLetters w.store d owners := by
  have hthere : ∀ id ∈ d.shops, w.store.catalog.shops.contains id = true := by
    intro id hid
    obtain ⟨l, hl, rfl⟩ := OrderDetail.mem_shops.mp hid
    obtain ⟨shop, hshop, -⟩ := hnamed l hl
    exact Table.contains_of_get? hshop
  obtain ⟨shops, b, hrun, hcovers⟩ : ∃ shops b, (ownerMails d d.shops []).run.run World.handle w =
      some (.ok b, w) ∧ Covers w.store d d.shops [] shops b :=
    exists_run_ownerMails hs.sound.catalog hnamed hthere (Id.pairwise_sorted _)
  have haccount : (Service.account buyer).run.run World.handle w =
      some (.ok (w.store.accounts.get? buyer), w) := rfl
  have hskipped := hcovers.skipped_eq
  rw [mails, run_bind_of_ok haccount, run_bind_of_ok hrun]
  cases hbuyer : w.store.accounts.get? buyer with
  | none =>
    refine ⟨[], b.mails, ?_, .unknown hbuyer, hcovers.ownerLetters⟩
    simp only [untold, hbuyer, ← hskipped, Batch.skip, Nat.add_comm]
    rfl
  | some a =>
    refine ⟨[buyerMail a.email d], b.mails, ?_, .known (buyerLetter_buyerMail hbuyer),
      hcovers.ownerLetters⟩
    simp only [untold, hbuyer, ← hskipped, Batch.add, Option.isNone_some, Bool.false_eq_true,
      if_false, Nat.zero_add]
    rfl

/-- Writing messages sends none. -/
theorem calls_mails (buyer : UserId) (d : OrderDetail) :
    (mails buyer d).run.Calls fun c => c.mail? = none := by
  have howners : ∀ ids seen, (ownerMails d ids seen).run.Calls fun c => c.mail? = none := by
    intro ids
    induction ids with
    | nil => exact fun seen => trivial
    | cons id ids ih =>
      intro seen
      refine .exceptT_bind ⟨rfl, fun _ => trivial⟩ fun shop => ?_
      rcases shop with - | shop
      · exact ih seen
      · refine .exceptT_bind ⟨rfl, fun _ => trivial⟩ fun owner => ?_
        rcases owner with - | owner
        · exact .exceptT_bind (ih seen) fun _ => trivial
        · simp only
          split
          · exact ih seen
          · exact .exceptT_bind (ih _) fun _ => trivial
  refine .exceptT_bind ⟨rfl, fun _ => trivial⟩ fun account => ?_
  exact .exceptT_bind (howners _ _) fun owners => trivial

/-! ## Sending them -/

/-- Each message is tried, whatever becomes of those before it. -/
theorem made_sendAll (w : World) (ms : List Mail) :
    Made World.handle (sendAll ms) w (ms.map .send)
      (.done ((ms.filter fun m => !w.outbox.fails m.recipient).length,
        (ms.map (·.recipient)).filter w.outbox.fails))
      { w with outbox := w.outbox.trying ms } := by
  induction ms generalizing w with
  | nil =>
    have hsame : w.outbox.trying [] = w.outbox := by
      simp only [Outbox.trying, List.filter_nil, List.append_nil]
    rw [hsame]
    exact .none _ _
  | cons m ms ih =>
    have hhandle : w.handle (.send m) =
        some ((w.outbox.send m).1, { w with outbox := (w.outbox.send m).2 }) := rfl
    rw [Outbox.trying_cons]
    cases h : w.outbox.fails m.recipient with
    | true =>
      obtain ⟨f, hsend⟩ := Outbox.send_of_fails h
      have hdone := (ih w).map fun x => (x.1, m.recipient :: x.2)
      rw [hsend] at hhandle ⊢
      rw [List.filter_cons_of_neg (by simp [h]), List.map_cons, List.map_cons,
        List.filter_cons_of_pos h]
      exact .next hhandle hdone
    | false =>
      have hdone := (ih { w with outbox := { w.outbox with sent := w.outbox.sent ++ [m] } }).map
        fun x => (x.1 + 1, x.2)
      rw [Outbox.send_of_not_fails h] at hhandle ⊢
      rw [List.filter_cons_of_pos (by simp [h]), List.map_cons, List.map_cons,
        List.filter_cons_of_neg (by simp [h])]
      exact .next hhandle hdone

/-! ## All of it -/

/-- Telling people of an order. -/
structure Told (w : World) (buyer : UserId) (id : OrderId) (d : OrderDetail) (attempts : List Mail)
    (report : NotifyReport) (w' : World) : Prop where
  /-- It comes to an end, and these are the messages that it tries to send. -/
  made : ∃ calls, Made World.handle (order buyer id).run w calls (.done (.ok report)) w' ∧
    calls.filterMap Call.mail? = attempts
  /-- The buyer gets one if the account is known, and then come those to the owners. -/
  letters : ∃ toBuyer owners, attempts = toBuyer ++ owners ∧
    BuyerLetters w.store buyer d toBuyer ∧ OwnerLetters w.store d owners
  sent : report.sent + report.failed.length = attempts.length
  /-- Those who cannot be reached, in the order in which they have been tried. -/
  failed : report.failed = (attempts.map (·.recipient)).filter w.outbox.fails
  skipped : report.skipped = untold w.store buyer d
  /-- All messages but these have been sent, and nothing else is changed. -/
  world : w' = { w with outbox := w.outbox.trying attempts }
  /-- The run of a job that tells people of the order is a success if and only if nobody has been
  out of reach. -/
  job : ∀ j, j.payload = .notifyOrderPlaced buyer id →
    ∃ result, (Work.notifyPlaced j).run World.handle w = some (result, w') ∧
      ((∃ output, result = .success output) ↔ report.failed = [])

/-- The run of the job is that of telling people, and its result says whether anybody was out of
reach. -/
theorem run_notifyPlaced {j : Job} (hj : j.payload = .notifyOrderPlaced buyer id) {w' : World}
    {report : NotifyReport}
    (hrun : (order buyer id).run.run World.handle w = some (.ok report, w')) :
    ∃ result, (Work.notifyPlaced j).run World.handle w = some (result, w') ∧
      ((∃ output, result = .success output) ↔ report.failed = []) := by
  have hwork : (Work.notifyPlaced j).run World.handle w =
      some (if report.failed.isEmpty then .success (some report.toJson)
        else .failure ("delivery failed for " ++ ", ".intercalate report.failed), w') := by
    unfold Work.notifyPlaced
    rw [hj]
    show ((order buyer id).run.bind _).run _ _ = _
    rw [run_bind, hrun]
    rfl
  refine ⟨_, hwork, ?_⟩
  split
  · rename_i hempty
    exact iff_of_true ⟨_, rfl⟩ (List.isEmpty_iff.mp hempty)
  · rename_i hsome
    exact iff_of_false nofun fun hnone => hsome (List.isEmpty_iff.mpr hnone)

/-- Once the messages of the order can be written, telling people of it tries to send each of them
and no others, and reports how that has gone. -/
theorem exists_made_order
    (hd : w.store.book.detail? (Store.line? w.store.catalog) id = some d) {b : Batch}
    (hmails : (mails d.order.buyer d).run.run World.handle w = some (.ok b, w)) :
    ∃ calls, Made World.handle (order d.order.buyer id).run w calls
        (.done (.ok ⟨(b.mails.filter fun m => !w.outbox.fails m.recipient).length, b.skipped,
          (b.mails.map (·.recipient)).filter w.outbox.fails⟩))
        { w with outbox := w.outbox.trying b.mails } ∧
      calls.filterMap Call.mail? = b.mails := by
  obtain ⟨calls, hcalls⟩ := exists_made_of_run hmails
  have hnone : calls.filterMap Call.mail? = [] :=
    List.filterMap_eq_nil_iff.mpr (hcalls.of_calls (calls_mails _ _))
  have hsends : (b.mails.map Call.send).filterMap Call.mail? = b.mails := by
    rw [List.filterMap_map]
    exact List.filterMap_some
  have hfound : w.handle (.store (.orders (.detail id))) = some (.ok (some d), w) := by
    rw [← hd]
    rfl
  have howned : d.order.ensureOwnedBy d.order.buyer = .ok () := by simp [Order.ensureOwnedBy]
  refine ⟨.store (.orders (.detail id)) :: (calls ++ (b.mails.map .send ++ [])), ?_, ?_⟩
  · refine .next hfound ?_
    show Made _ (Service.ofExcept (d.order.ensureOwnedBy d.order.buyer) >>= fun _ =>
      mails d.order.buyer d >>= fun batch =>
        ExceptT.lift (sendAll batch.mails) >>= fun x =>
          pure (NotifyReport.mk x.1 batch.skipped x.2)).run _ _ _ _
    rw [howned]
    show Made _ (mails d.order.buyer d >>= _).run _ _ _ _
    have hsent : Made World.handle (ExceptT.lift (sendAll b.mails) : Service _).run w
        (b.mails.map .send) _ _ := (made_sendAll w b.mails).map Except.ok
    rw [bind_exceptT]
    refine hcalls.bind ?_
    show Made _ (ExceptT.lift (sendAll b.mails) >>= _ : Service _).run _ _ _ _
    rw [bind_exceptT]
    exact hsent.bind (.none _ _)
  · rw [List.filterMap_cons_none rfl, List.filterMap_append, hnone, List.append_nil, hsends,
      List.nil_append]

/-- Of the messages that are tried so many are sent as do not fail. -/
theorem length_sent_add_length_failed (b : Outbox) (ms : List Mail) :
    (ms.filter fun m => !b.fails m.recipient).length +
      ((ms.map (·.recipient)).filter b.fails).length = ms.length := by
  have hfailed : ((ms.map (·.recipient)).filter b.fails).length =
      (ms.filter fun m => b.fails m.recipient).length := by
    rw [List.filter_map, List.length_map]
    rfl
  rw [hfailed, ms.length_eq_length_filter_add fun m => b.fails m.recipient, Nat.add_comm]

/-- Whoever the order is of is told, and so are the owners of the shops in it. -/
theorem exists_told (hs : w.store.Reachable)
    (hd : w.store.book.detail? (Store.line? w.store.catalog) id = some d) :
    ∃ attempts report w', Told w d.order.buyer id d attempts report w' := by
  obtain ⟨toBuyer, owners, hmails, hbuyer, howners⟩ :=
    exists_run_mails hs (OrderBook.detail?_named hd) d.order.buyer
  have hmade := exists_made_order hd hmails
  refine ⟨toBuyer ++ owners, _, _, hmade, ⟨toBuyer, owners, rfl, hbuyer, howners⟩,
    length_sent_add_length_failed _ _, rfl, rfl, rfl, fun j hj => ?_⟩
  obtain ⟨calls, hcalls, -⟩ := hmade
  exact run_notifyPlaced hj hcalls.run_eq

/-- Whoever the mailer cannot reach, telling people of an order comes to an end.  It tries to send
one message to the buyer, if the account is known, and then one to each distinct address of the
known owners of shops in the order, in the order of the first shops of the addresses, with the lines
of that one shop; and it says how many have been sent, who could not be reached, and how many are
not known. -/
theorem told_of_order (hs : w.store.Reachable) {o : Order}
    (ho : w.store.book.orders.get? id = some o) :
    ∃ d attempts report w', w.store.book.detail? (Store.line? w.store.catalog) id = some d ∧
      d.order = o ∧ Told w o.buyer id d attempts report w' := by
  have hd : w.store.book.detail? (Store.line? w.store.catalog) id =
      some (w.store.book.detail (Store.line? w.store.catalog) o (w.store.book.itemsOf id)) := by
    rw [OrderBook.detail?, ho]
    rfl
  obtain ⟨attempts, report, w', htold⟩ := exists_told hs hd
  exact ⟨_, attempts, report, w', hd, rfl, htold⟩

/-! ## A purchase from two shops -/

/-- Two shops import a phone each, a buyer orders both, and the accounts of the owners become
known. -/
def twoShopOrder (first second : String) : List (Program Unit) :=
  Importer.phoneSale ++
    [(Contacts.create ⟨7⟩ ⟨"Moscow", "Arbat", "1", none, none, none, "+7 495 000"⟩).run.bind
        fun _ => .done (),
      (Orders.checkout ⟨7⟩ ⟨1⟩ ⟨1⟩).run.bind fun _ => .done (),
      (Service.remember ⟨⟨1⟩, first, .shop⟩).run.bind fun _ =>
        (Service.remember ⟨⟨2⟩, second, .shop⟩).run.bind fun _ => .done ()]

theorem throughServices_twoShopOrder (first second : String) :
    ∀ p ∈ twoShopOrder first second, p.ThroughServices := by
  intro p hp
  rcases List.mem_append.mp hp with hp | hp
  · exact throughServices_phoneSale p hp
  · simp only [List.mem_cons, List.not_mem_nil, or_false] at hp
    rcases hp with rfl | rfl | rfl
    · exact (Contacts.through_create _ _).bind fun _ => .done ()
    · exact .errand ⟨7⟩ (.checkout ⟨1⟩ ⟨1⟩) fun _ => .done ()
    · exact .call rfl fun _ => .call rfl fun _ => .done ()

/-- The steps of the programs, one program after the other. -/
def twoShopSteps : List Nat :=
  List.replicate 13 0 ++ List.replicate 13 1 ++ List.replicate 7 2 ++ [3] ++ List.replicate 10 4 ++
    [5, 5]

/-- The account of the buyer. -/
def knownBuyer : Account := ⟨⟨7⟩, "buyer@example.com", .buyer⟩

/-- The purchase from two shops of a buyer who becomes known. -/
def twoShopOrderOfKnown : List (Program Unit) :=
  twoShopOrder "one@example.com" "two@example.com" ++
    [(Service.remember knownBuyer).run.bind fun _ => .done ()]

theorem throughServices_twoShopOrderOfKnown : ∀ p ∈ twoShopOrderOfKnown, p.ThroughServices := by
  refine List.forall_mem_append.mpr ⟨throughServices_twoShopOrder _ _, ?_⟩
  rw [List.forall_mem_singleton]
  exact .call rfl fun _ => .done ()

/-- Where the first owner cannot be reached, the buyer and the second owner get their messages, of
which the buyer's goes first, and the job is a failure. -/
theorem told_of_twoShopOrder : ∃ (w : World) (o : Order) (d : OrderDetail) (attempts : List Mail)
    (report : NotifyReport) (w' : World), w.store.Reachable ∧
      w.store.book.orders.get? ⟨1⟩ = some o ∧ Told w o.buyer ⟨1⟩ d attempts report w' ∧
      report = ⟨2, 0, ["one@example.com"]⟩ ∧ attempts.length = 3 ∧
      ∃ m, attempts.head? = some m ∧ m.recipient = "buyer@example.com" ∧
        m.subject = "Order 1 placed" := by
  have hplay : (Pool.play (twoShopSteps ++ [6]) ⟨.start ⟨0, 0⟩ 3,
      twoShopOrderOfKnown.map .start⟩).any (fun P =>
        decide (P.world.store.book.orders.get? ⟨1⟩ = some ⟨⟨1⟩, ⟨7⟩, .new, ⟨0, 0⟩, some ⟨1⟩⟩ ∧
          P.world.store.accounts.get? ⟨7⟩ = some knownBuyer) &&
          ((order ⟨7⟩ ⟨1⟩).run.run World.handle
            { P.world with outbox := P.world.outbox.failFor "one@example.com" }).any fun r =>
              decide (r.1 = .ok ⟨2, 0, ["one@example.com"]⟩)) = true := by
    decide +kernel
  obtain ⟨P, hP, hfacts⟩ := (Option.any_eq_true _ _).mp hplay
  simp only [Bool.and_eq_true, decide_eq_true_eq] at hfacts
  obtain ⟨⟨ho, hknown⟩, hran⟩ := hfacts
  obtain ⟨r, hrun, hr⟩ := (Option.any_eq_true _ _).mp hran
  have hreach := (Pool.Reachable.begin ⟨0, 0⟩ 3 throughServices_twoShopOrderOfKnown).play hP
  let w : World := { P.world with outbox := P.world.outbox.failFor "one@example.com" }
  have hstore : w.store.Reachable := hreach.store
  obtain ⟨d, attempts, report, w', -, horder, htold⟩ := told_of_order hstore ho
  have hreport : report = ⟨2, 0, ["one@example.com"]⟩ := by
    obtain ⟨calls, hmade, -⟩ := htold.made
    have hsame := hmade.run_eq
    rw [hrun] at hsame
    have hfst := congrArg Prod.fst (Option.some.inj hsame)
    rw [of_decide_eq_true hr] at hfst
    exact (Except.ok.inj hfst).symm
  refine ⟨w, _, d, attempts, report, w', hstore, ho, htold, hreport, ?_, ?_⟩
  · rw [← htold.sent, hreport]
    rfl
  · obtain ⟨toBuyer, owners, rfl, hbuyer, -⟩ := htold.letters
    cases hbuyer with
    | unknown hnone =>
      rw [show w.store.accounts.get? ⟨7⟩ = some knownBuyer from hknown] at hnone
      cases hnone
    | known hletter =>
      obtain ⟨a, ha, hrecipient⟩ := hletter.recipient
      rw [show w.store.accounts.get? ⟨7⟩ = some knownBuyer from hknown, Option.some.injEq] at ha
      refine ⟨_, rfl, by rw [hrecipient, ← ha]; rfl, ?_⟩
      rw [hletter.subject, horder]
      rfl

end Notify

end Marketplace
