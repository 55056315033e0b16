import Mathlib.Data.Finset.Card
import Marketplace.Proofs.Program.Run
import Marketplace.Proofs.Storage.Reachable
import Marketplace.Service.Work
set_option autoImplicit false

/-!
# The messages of an order

Which messages are written for an order: one to the buyer and one to each address of an owner, the
latter with the lines of one shop, the first of those whose owners have the address.
-/

namespace Marketplace

open Program

/-! ## Lines and their shops -/

/-- The shop that a line names is there. -/
def OrderLine.Named (c : Catalog) (l : OrderLine) : Prop :=
  ∃ shop, c.shops.get? l.shop = some shop ∧ shop.name = l.shopName

theorem Store.line?_named {c : Catalog} {i : OrderItem} {l : OrderLine}
    (h : line? c i = some l) : l.Named c := by
  simp only [line?, Option.bind_eq_some_iff, Option.map_eq_some_iff] at h
  obtain ⟨_, -, _, -, shop, hshop, rfl⟩ := h
  exact ⟨shop, hshop, rfl⟩

theorem OrderBook.detail?_named {b : OrderBook} {c : Catalog} {id : OrderId} {d : OrderDetail}
    (h : b.detail? (Store.line? c) id = some d) : ∀ l ∈ d.lines, l.Named c := by
  obtain ⟨o, -, rfl⟩ := Option.map_eq_some_iff.mp h
  intro l hl
  obtain ⟨i, -, hi⟩ := List.mem_filterMap.mp hl
  exact Store.line?_named hi

theorem OrderDetail.mem_shops {d : OrderDetail} {id : ShopId} :
    id ∈ d.shops ↔ ∃ l ∈ d.lines, l.shop = id := by
  rw [shops, Id.mem_sorted, List.mem_map]

theorem OrderDetail.nodup_shops (d : OrderDetail) : d.shops.Nodup :=
  (Id.pairwise_sorted _).imp fun hlt heq => by
    rw [heq] at hlt
    exact Int.lt_irrefl _ hlt

namespace Notify

variable {s : Store} {d : OrderDetail} {ids shops : List ShopId} {seen : List String} {b : Batch}

/-- The text of one line. -/
def lineText (l : OrderLine) : String :=
  s!"- {l.productName} {l.model} x{l.quantity} @ {l.priceRrc} = {l.total}\n"

/-- The text is a headline, these lines in their order, and what they come to; nothing else. -/
def Listing (headline : String) (lines : List OrderLine) (text : String) : Prop :=
  text = headline ++ "\n\n" ++ String.join (lines.map lineText) ++
    s!"\nTotal: {OrderDetail.sum lines}\n"

/-! ## Messages to buyers -/

/-- The message goes to the buyer, whose account is known, names the order, and lists all lines of
it. -/
structure BuyerLetter (s : Store) (buyer : UserId) (d : OrderDetail) (m : Mail) : Prop where
  recipient : ∃ a, s.accounts.get? buyer = some a ∧ m.recipient = a.email
  subject : m.subject = s!"Order {d.order.id} placed"
  body : Listing s!"Your order {d.order.id} has been placed." d.lines m.body

/-- The messages to the buyer: one if the account is known, and else none. -/
inductive BuyerLetters (s : Store) (buyer : UserId) (d : OrderDetail) : List Mail → Prop
  | unknown (h : s.accounts.get? buyer = none) : BuyerLetters s buyer d []
  | known {m : Mail} (h : BuyerLetter s buyer d m) : BuyerLetters s buyer d [m]

theorem buyerLetter_buyerMail {buyer : UserId} {a : Account}
    (ha : s.accounts.get? buyer = some a) : BuyerLetter s buyer d (buyerMail a.email d) where
  recipient := ⟨a, ha, rfl⟩
  subject := rfl
  body := rfl

/-! ## Messages to owners -/

/-- The address of the owner of a shop, if the account is known. -/
def ownerEmail? (s : Store) (id : ShopId) : Option String :=
  (s.catalog.shops.get? id).bind fun shop => (s.accounts.get? shop.owner).map (·.email)

/-- The message goes to the owner of the shop, names the shop, and lists the lines of the shop and
no others. -/
structure OwnerLetter (s : Store) (d : OrderDetail) (id : ShopId) (m : Mail) : Prop where
  recipient : ownerEmail? s id = some m.recipient
  subject : m.subject = s!"New order {d.order.id}"
  body : ∃ name lines, Listing s!"Order {d.order.id} contains items from {name}." lines m.body ∧
    lines.Sublist d.lines ∧ (∀ l, l ∈ lines ↔ l ∈ d.lines ∧ l.shop = id) ∧
      ∀ l, l ∈ lines ↔ l ∈ d.lines ∧ l.shopName = name

theorem ownerLetter_ownerMail {n : CatalogCounters} (hc : s.catalog.Coherent n)
    (hnamed : ∀ l ∈ d.lines, l.Named s.catalog) {id : ShopId} {shop : Shop} {owner : Account}
    (hshop : s.catalog.shops.get? id = some shop)
    (howner : s.accounts.get? shop.owner = some owner) :
    OwnerLetter s d id (ownerMail owner.email shop d) := by
  have hid : shop.id = id := (hc.shops id shop hshop).1
  refine ⟨?_, rfl, shop.name, _, rfl, List.filter_sublist, fun l => ?_, fun l => ?_⟩
  · simp only [ownerEmail?, hshop, howner, Option.bind_some, Option.map_some, ownerMail]
  · rw [List.mem_filter, hid, decide_eq_true_iff]
  · rw [List.mem_filter, hid, decide_eq_true_iff]
    refine and_congr_right fun hl => ?_
    obtain ⟨row, hrow, hname⟩ := hnamed l hl
    constructor
    · rintro rfl
      rw [hshop] at hrow
      cases hrow
      exact hname.symm
    · intro hsame
      exact hc.shop_name_injective hrow hshop (hname.trans hsame)

/-- The batch has a message for each address of owners of the listed shops that has not been seen,
about the first shop of the address; `shops` are these first shops. -/
structure Covers (s : Store) (d : OrderDetail) (ids : List ShopId) (seen : List String)
    (shops : List ShopId) (b : Batch) : Prop where
  sublist : shops.Sublist ids
  letters : List.Forall₂ (OwnerLetter s d) shops b.mails
  fresh : ∀ m ∈ b.mails, m.recipient ∉ seen
  distinct : (b.mails.map (·.recipient)).Nodup
  reached : ∀ id ∈ ids, ∀ e, ownerEmail? s id = some e →
    e ∈ seen ∨ ∃ first ∈ shops, first.value ≤ id.value ∧ ownerEmail? s first = some e
  skipped : b.skipped = ids.countP fun id => (ownerEmail? s id).isNone

namespace Covers

theorem nil : Covers s d [] seen [] ⟨[], 0⟩ where
  sublist := .slnil
  letters := .nil
  fresh := nofun
  distinct := .nil
  reached := nofun
  skipped := rfl

variable {id : ShopId} {e : String}

/-- A shop whose owner is not known is passed over. -/
theorem skip (h : Covers s d ids seen shops b) (hid : ownerEmail? s id = none) :
    Covers s d (id :: ids) seen shops b.skip where
  sublist := h.sublist.cons id
  letters := h.letters
  fresh := h.fresh
  distinct := h.distinct
  reached := by
    intro id' hid' e he
    rcases List.mem_cons.mp hid' with rfl | hid'
    · rw [hid] at he
      cases he
    · exact h.reached id' hid' e he
  skipped := by
    rw [List.countP_cons_of_pos (by simp [hid]), ← h.skipped]
    rfl

/-- A shop at whose address there is a message already gets none. -/
theorem pass (h : Covers s d ids seen shops b) (hid : ownerEmail? s id = some e)
    (hseen : e ∈ seen) : Covers s d (id :: ids) seen shops b where
  sublist := h.sublist.cons id
  letters := h.letters
  fresh := h.fresh
  distinct := h.distinct
  reached := by
    intro id' hid' e' he'
    rcases List.mem_cons.mp hid' with rfl | hid'
    · rw [hid] at he'
      cases he'
      exact Or.inl hseen
    · exact h.reached id' hid' e' he'
  skipped := by
    rw [List.countP_cons_of_neg (by simp [hid])]
    exact h.skipped

/-- The first shop of a new address gets a message. -/
theorem add {m : Mail} (h : Covers s d ids (e :: seen) shops b) (hm : OwnerLetter s d id m)
    (he : m.recipient = e) (hseen : e ∉ seen) (hfirst : ∀ other ∈ ids, id.value < other.value) :
    Covers s d (id :: ids) seen (id :: shops) (b.add m) where
  sublist := h.sublist.cons_cons id
  letters := .cons hm h.letters
  fresh := by
    intro m' hm'
    rcases List.mem_cons.mp hm' with rfl | hm'
    · rwa [he]
    · exact fun hold => h.fresh m' hm' (List.mem_cons_of_mem _ hold)
  distinct := by
    refine List.nodup_cons.mpr ⟨fun hold => ?_, h.distinct⟩
    obtain ⟨m', hm', hsame⟩ := List.mem_map.mp hold
    refine h.fresh m' hm' ?_
    have hrecipient : m'.recipient = e := hsame.trans he
    rw [hrecipient]
    exact List.mem_cons_self
  reached := by
    intro id' hid' e' he'
    have hhead : ownerEmail? s id = some e := he ▸ hm.recipient
    rcases List.mem_cons.mp hid' with rfl | hid'
    · exact Or.inr ⟨id', List.mem_cons_self, Int.le_refl _, he'⟩
    · rcases h.reached id' hid' e' he' with hold | ⟨first, hfirst, hle, hsame⟩
      · rcases List.mem_cons.mp hold with rfl | hold
        · exact Or.inr ⟨id, List.mem_cons_self, Int.le_of_lt (hfirst id' hid'), hhead⟩
        · exact Or.inl hold
      · exact Or.inr ⟨first, List.mem_cons_of_mem _ hfirst, hle, hsame⟩
  skipped := by
    rw [List.countP_cons_of_neg (by simp [hm.recipient])]
    exact h.skipped

end Covers

/-- Whose address which message goes to. -/
theorem map_recipient {ms : List Mail} (h : List.Forall₂ (OwnerLetter s d) shops ms) :
    ms.map (fun m => some m.recipient) = shops.map (ownerEmail? s) := by
  induction h with
  | nil => rfl
  | cons hm _ ih => rw [List.map_cons, List.map_cons, ih, hm.recipient]

theorem exists_letter {ms : List Mail} (h : List.Forall₂ (OwnerLetter s d) shops ms) {id : ShopId}
    (hid : id ∈ shops) : ∃ m ∈ ms, OwnerLetter s d id m := by
  induction h with
  | nil => cases hid
  | cons hm _ ih =>
    rcases List.mem_cons.mp hid with rfl | hid
    · exact ⟨_, List.mem_cons_self, hm⟩
    · obtain ⟨m, hmem, hletter⟩ := ih hid
      exact ⟨m, List.mem_cons_of_mem _ hmem, hletter⟩

/-! ## All messages to owners -/

/-- The shop is in the order, and it is the first one there whose owner has its owner's address. -/
structure IsFirst (s : Store) (d : OrderDetail) (id : ShopId) (e : String) : Prop where
  line : ∃ l ∈ d.lines, l.shop = id
  email : ownerEmail? s id = some e
  first : ∀ l ∈ d.lines, l.shop.value < id.value → ownerEmail? s l.shop ≠ some e

/-- One message for each distinct address of the known owners of shops in the order, in the order of
the first shops of the addresses. -/
structure OwnerLetters (s : Store) (d : OrderDetail) (ms : List Mail) : Prop where
  distinct : (ms.map (·.recipient)).Nodup
  addresses : ∀ e, e ∈ ms.map (·.recipient) ↔ ∃ l ∈ d.lines, ownerEmail? s l.shop = some e
  /-- Each message is about the first shop of its address, and these shops ascend. -/
  letters : ∃ shops, shops.Pairwise (fun a b => a.value < b.value) ∧
    List.Forall₂ (OwnerLetter s d) shops ms ∧ ∀ id, id ∈ shops ↔ ∃ e, IsFirst s d id e

theorem Covers.ownerLetters (h : Covers s d d.shops [] shops b) : OwnerLetters s d b.mails where
  distinct := h.distinct
  addresses := by
    intro e
    have hmem : some e ∈ b.mails.map (fun m => some m.recipient) ↔
        some e ∈ shops.map (ownerEmail? s) := by rw [map_recipient h.letters]
    have hrecipient : e ∈ b.mails.map (·.recipient) ↔ some e ∈ shops.map (ownerEmail? s) := by
      rw [← hmem]
      simp only [List.mem_map, Option.some.injEq]
    rw [hrecipient, List.mem_map]
    constructor
    · rintro ⟨id, hid, he⟩
      obtain ⟨l, hl, rfl⟩ := OrderDetail.mem_shops.mp (h.sublist.subset hid)
      exact ⟨l, hl, he⟩
    · rintro ⟨l, hl, he⟩
      rcases h.reached l.shop (OrderDetail.mem_shops.mpr ⟨l, hl, rfl⟩) e he with
        hseen | ⟨first, hfirst, -, hsame⟩
      · cases hseen
      · exact ⟨first, hfirst, hsame⟩
  letters := by
    have hnodup : (shops.map (ownerEmail? s)).Nodup := by
      have hsome := h.distinct.map (Option.some_injective String)
      rwa [List.map_map, Function.comp_def, map_recipient h.letters] at hsome
    refine ⟨shops, (Id.pairwise_sorted _).sublist h.sublist, h.letters,
      fun id => ⟨fun hid => ?_, ?_⟩⟩
    · obtain ⟨m, -, hm⟩ := exists_letter h.letters hid
      refine ⟨m.recipient, OrderDetail.mem_shops.mp (h.sublist.subset hid), hm.recipient, ?_⟩
      intro l hl hlt he
      rcases h.reached l.shop (OrderDetail.mem_shops.mpr ⟨l, hl, rfl⟩) _ he with
        hseen | ⟨first, hfirst, hle, hsame⟩
      · cases hseen
      · have heq : first = id :=
          List.inj_on_of_nodup_map hnodup hfirst hid (hsame.trans hm.recipient.symm)
        subst heq
        omega
    · rintro ⟨e, hline, hemail, hfirst⟩
      rcases h.reached id (OrderDetail.mem_shops.mpr hline) e hemail with
        hseen | ⟨first, hmem, hle, hsame⟩
      · cases hseen
      · obtain ⟨l, hl, rfl⟩ := OrderDetail.mem_shops.mp (h.sublist.subset hmem)
        have hnot : ¬l.shop.value < id.value := fun hlt => hfirst l hl hlt hsame
        have hvalue : l.shop.value = id.value := Int.le_antisymm hle (Int.not_lt.mp hnot)
        have heq : l.shop = id := congrArg Id.mk hvalue
        rwa [← heq]

/-- How many owners of shops in the order are not known. -/
theorem Covers.skipped_eq (h : Covers s d d.shops [] shops b) :
    b.skipped =
      ((d.lines.map (·.shop)).toFinset.filter fun id => (ownerEmail? s id).isNone).card := by
  have hsame : (d.lines.map (·.shop)).toFinset = d.shops.toFinset := by
    ext id
    rw [List.mem_toFinset, List.mem_toFinset, OrderDetail.shops, Id.mem_sorted]
  rw [h.skipped, hsame, ← List.toFinset_filter,
    List.toFinset_card_of_nodup (d.nodup_shops.filter _),
    List.countP_eq_length_filter]

end Notify

end Marketplace
