import Marketplace.Proofs.Notify.Told
set_option autoImplicit false

/-!
# Which lines are announced

A line of an order is listed in a message to the owner of its shop if no earlier shop of the order
has an owner at the same address (`Notify.line_announced`).  If one has, the message at the address
is about the earlier shop alone, and nobody tells the owner of the others
(`Notify.exists_line_not_announced`).
-/

namespace Marketplace

open Program

namespace Notify

variable {w : World} {d : OrderDetail} {id : OrderId} {l : OrderLine}

/-- The message lists the line. -/
def Lists (m : Mail) (l : OrderLine) : Prop :=
  ∃ before after, m.body = before ++ lineText l ++ after

/-- A message lists the lines that it is made of. -/
theorem Listing.lists {m : Mail} {headline : String} {lines : List OrderLine}
    (h : Listing headline lines m.body) (hl : l ∈ lines) : Lists m l := by
  obtain ⟨front, back, rfl⟩ := List.append_of_mem hl
  refine ⟨headline ++ "\n\n" ++ String.join (front.map lineText),
    String.join (back.map lineText) ++ s!"\nTotal: {OrderDetail.sum (front ++ l :: back)}\n", ?_⟩
  rw [h, List.map_append, List.map_cons, String.join_append, String.join_cons]
  simp only [String.append_assoc]

/-- A message to the owner of a shop lists the lines of that shop. -/
theorem OwnerLetter.lists {s : Store} {m : Mail} (h : OwnerLetter s d l.shop m)
    (hl : l ∈ d.lines) : Lists m l := by
  obtain ⟨name, lines, hbody, -, hlines, -⟩ := h.body
  exact hbody.lists ((hlines l).mpr ⟨hl, rfl⟩)

/-- A line of an order is announced to the owner of its shop if the account is known and no earlier
shop of the order has an owner at the same address. -/
theorem line_announced (hs : w.store.Reachable)
    (hd : w.store.book.detail? (Store.line? w.store.catalog) id = some d) (hl : l ∈ d.lines)
    {e : String} (hfirst : IsFirst w.store d l.shop e) :
    ∃ calls r w' m, Made World.handle (order d.order.buyer id).run w calls (.done r) w' ∧
      .send m ∈ calls ∧ m.recipient = e ∧ m.subject = s!"New order {d.order.id}" ∧ Lists m l := by
  obtain ⟨attempts, report, w', htold⟩ := exists_told hs hd
  obtain ⟨calls, hmade, hmails⟩ := htold.made
  obtain ⟨toBuyer, owners, hattempts, -, howners⟩ := htold.letters
  obtain ⟨shops, -, hletters, hshops⟩ := howners.letters
  have hshop : l.shop ∈ shops := (hshops l.shop).mpr ⟨e, hfirst⟩
  obtain ⟨m, hm, hletter⟩ := exists_letter hletters hshop
  have hattempt : m ∈ attempts := by
    rw [hattempts]
    exact List.mem_append_right _ hm
  have hsend : Call.send m ∈ calls := by
    rw [← hmails] at hattempt
    obtain ⟨c, hc, hmail⟩ := List.mem_filterMap.mp hattempt
    cases c with
    | send _ => cases hmail; exact hc
    | _ => cases hmail
  have hrecipient : m.recipient = e :=
    Option.some.inj (hletter.recipient.symm.trans hfirst.email)
  exact ⟨calls, _, w', m, hmade, hsend, hrecipient, hletter.subject, hletter.lists hl⟩

/-! ## The two lines of `twoShopOrder` -/

/-- The line of the first shop. -/
def firstLine : OrderLine := ⟨⟨1⟩, ⟨1⟩, ⟨1⟩, "Svyaznoy", "Phone", "x", 3, 116⟩

/-- The line of the second shop. -/
def secondLine : OrderLine := ⟨⟨2⟩, ⟨2⟩, ⟨2⟩, "Euroset", "Phone", "x", 1, 116⟩

/-- The order with both lines is placed, and the owners of the shops have these addresses. -/
def Ordered (w : World) (first second : String) : Prop :=
  ((w.store.book.detail? (Store.line? w.store.catalog) ⟨1⟩).any fun d =>
      decide (d.order.buyer = ⟨7⟩ ∧ d.order.status = .new ∧ d.lines = [firstLine, secondLine])) ∧
    ownerEmail? w.store ⟨1⟩ = some first ∧ ownerEmail? w.store ⟨2⟩ = some second ∧
      w.outbox = .empty

instance (w : World) (first second : String) : Decidable (Ordered w first second) :=
  inferInstanceAs (Decidable (_ ∧ _))

/-- Where the owners have two addresses, the second line is announced at the second one. -/
theorem line_announced_in_twoShopOrder : ∃ (w : World) (d : OrderDetail) (calls : List Call)
    (r : Except Refusal NotifyReport) (w' : World) (m : Mail),
    w.store.Reachable ∧ d.lines = [firstLine, secondLine] ∧
      Made World.handle (order d.order.buyer ⟨1⟩).run w calls (.done r) w' ∧
      .send m ∈ calls ∧ m.recipient = "two@example.com" ∧ Lists m secondLine := by
  have hplay : (Pool.play twoShopSteps ⟨.start ⟨0, 0⟩ 3,
      (twoShopOrder "one@example.com" "two@example.com").map .start⟩).any (fun P =>
        decide (Ordered P.world "one@example.com" "two@example.com")) = true := by
    decide +kernel
  obtain ⟨P, hP, hfacts⟩ := (Option.any_eq_true _ _).mp hplay
  obtain ⟨hdetail, hfirst, hsecond, -⟩ := of_decide_eq_true hfacts
  obtain ⟨d, hd, hplaced⟩ := (Option.any_eq_true _ _).mp hdetail
  obtain ⟨-, -, hlines⟩ := of_decide_eq_true hplaced
  have hreach := (Pool.Reachable.begin ⟨0, 0⟩ 3
    (throughServices_twoShopOrder "one@example.com" "two@example.com")).play hP
  have hl : secondLine ∈ d.lines := by simp [hlines]
  have hearliest : IsFirst P.world.store d secondLine.shop "two@example.com" := by
    refine ⟨⟨_, hl, rfl⟩, hsecond, fun l hmem hlt he => ?_⟩
    rw [hlines] at hmem
    simp only [List.mem_cons, List.not_mem_nil, or_false] at hmem
    rcases hmem with rfl | rfl
    · rw [show firstLine.shop = ⟨1⟩ from rfl, hfirst] at he
      exact absurd (Option.some.inj he) (by decide)
    · exact Int.lt_irrefl _ hlt
  obtain ⟨calls, r, w', m, hmade, hsend, hrecipient, -, hlists⟩ :=
    line_announced hreach.store hd hl hearliest
  exact ⟨P.world, d, calls, r, w', m, hreach.store, hlines, hmade, hsend, hrecipient, hlists⟩

/-- What a message does not list is no part of its text. -/
theorem not_lists_of_not_infix {m : Mail} (h : ¬(lineText l).toList <:+: m.body.toList) :
    ¬Lists m l := by
  rintro ⟨before, after, hbody⟩
  refine h ⟨before.toList, after.toList, ?_⟩
  rw [hbody, String.toList_append, String.toList_append]

/-- Where the owners of both shops have one address, the second line of a placed order is in none of
the messages that are sent, though nobody is out of reach. -/
theorem exists_line_not_announced : ∃ (P : Pool) (d : OrderDetail) (report : NotifyReport)
    (w' : World), P.Reachable Program.ThroughServices ∧
      P.world.store.book.detail? (Store.line? P.world.store.catalog) ⟨1⟩ = some d ∧
      d.order.status = .new ∧ secondLine ∈ d.lines ∧
      ownerEmail? P.world.store secondLine.shop = some "office@example.com" ∧
      P.world.outbox.sent = [] ∧
      (order d.order.buyer ⟨1⟩).run.run World.handle P.world = some (.ok report, w') ∧
      report.failed = [] ∧ ∀ m ∈ w'.outbox.sent, ¬Lists m secondLine := by
  have hplay : (Pool.play twoShopSteps ⟨.start ⟨0, 0⟩ 3,
      (twoShopOrder "office@example.com" "office@example.com").map .start⟩).any (fun P =>
        decide (Ordered P.world "office@example.com" "office@example.com") &&
          ((order ⟨7⟩ ⟨1⟩).run.run World.handle P.world).any fun r =>
            decide (r.1 = .ok ⟨1, 1, []⟩ ∧ ∀ m ∈ r.2.outbox.sent,
              ¬(lineText secondLine).toList <:+: m.body.toList)) = true := by
    decide +kernel
  obtain ⟨P, hP, hfacts⟩ := (Option.any_eq_true _ _).mp hplay
  obtain ⟨hordered, hran⟩ := Bool.and_eq_true_iff.mp hfacts
  obtain ⟨hdetail, -, hsecond, houtbox⟩ := of_decide_eq_true hordered
  obtain ⟨d, hd, hplaced⟩ := (Option.any_eq_true _ _).mp hdetail
  obtain ⟨hbuyer, hnew, hlines⟩ := of_decide_eq_true hplaced
  obtain ⟨⟨r, w'⟩, hrun, hr⟩ := (Option.any_eq_true _ _).mp hran
  obtain ⟨rfl, hsent⟩ := of_decide_eq_true hr
  have hreach := (Pool.Reachable.begin ⟨0, 0⟩ 3
    (throughServices_twoShopOrder "office@example.com" "office@example.com")).play hP
  refine ⟨P, d, ⟨1, 1, []⟩, w', hreach, hd, hnew, by simp [hlines], hsecond, ?_, ?_, rfl, ?_⟩
  · rw [houtbox]
    rfl
  · rw [hbuyer]
    exact hrun
  · intro m hm
    exact not_lists_of_not_infix (hsent m hm)

end Notify

end Marketplace
