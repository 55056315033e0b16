import Marketplace.Order.Basic
import Marketplace.Proofs.Json.Encoded
import Marketplace.Proofs.Time.Stamp
set_option autoImplicit false

/-!
# Orders as JSON

Identifiers, contacts, orders with their lines and the details of an order are read back from what
is written of them.  The numbers of an order are of 64 bits (`OrderDetail.Fits`) and its instant is
one that the calendar has.  An instant comes back as its text shows it (`OrderDetail.shown`), which
is as it was unless it lies in a leap second within a minute.
-/

namespace Marketplace

open Json (Value Decoder)
open Json.Value
open Json.Decoder

namespace Id

variable {kind : IdKind} {i : Id kind}

/-- The number of the identifier is one of 64 bits. -/
def Fits (i : Id kind) : Prop := Signed64 i.value

instance (i : Id kind) : Decidable i.Fits := inferInstanceAs (Decidable (Signed64 i.value))

theorem Fits.reads (h : i.Fits) : decoder.Reads i.toJson i := (reads_signed64 h).map mk

theorem Fits.isSpelled (h : i.Fits) : i.toJson.IsSpelled := isSpelled_signed64 h

end Id

/-- The stages of an order are names, each read as its own stage. -/
theorem OrderStatus.reads (s : OrderStatus) : decoder.Reads s.toJson s := by
  refine reads_oneOf_plain ?_
  cases s <;> rfl

namespace Contact

variable {c : Contact}

/-- The identifiers are of 64 bits. -/
structure Fits (c : Contact) : Prop where
  id : c.id.Fits
  user : c.user.Fits

theorem Fits.reads (h : c.Fits) : decoder.Reads c.toJson c := by
  have htext (s : String) := reads_text s
  refine Fills.record (.field rfl rfl (h.id.reads.required _ _)
    (.field rfl rfl (h.user.reads.required _ _) ?_))
  refine .field rfl rfl ((htext _).required _ _) (.field rfl rfl ((htext _).required _ _) ?_)
  refine .field rfl rfl ((htext _).required _ _) (.field rfl rfl ((htext _).required _ _) ?_)
  refine .field rfl rfl ((htext _).required _ _) (.field rfl rfl ((htext _).required _ _) ?_)
  exact .field rfl rfl ((htext _).required _ _) (.done rfl)

theorem Fits.isSpelled (h : c.Fits) : c.toJson.IsSpelled := by
  refine isSpelled_object ?_
  simp [AddressOf.named, h.id.isSpelled, h.user.isSpelled, isSpelled_text]

end Contact

namespace OrderLine

variable {l : OrderLine}

/-- The numbers are of 64 bits. -/
structure Fits (l : OrderLine) : Prop where
  id : l.id.Fits
  listing : l.listing.Fits
  shop : l.shop.Fits
  quantity : Signed64 l.quantity
  priceRrc : Signed64 l.priceRrc

theorem Fits.reads (h : l.Fits) : decoder.Reads l.toJson l := by
  refine Fills.record (.field rfl rfl (h.id.reads.required _ _) ?_)
  refine .field rfl rfl (h.listing.reads.required _ _) ?_
  refine .field rfl rfl (h.shop.reads.required _ _) ?_
  refine .field rfl rfl ((reads_text l.shopName).required _ _) ?_
  refine .field rfl rfl ((reads_text l.productName).required _ _) ?_
  refine .field rfl rfl ((reads_text l.model).required _ _) ?_
  refine .field rfl rfl ((reads_signed64 h.quantity).required _ _) ?_
  exact .field rfl rfl ((reads_signed64 h.priceRrc).required _ _) (.done rfl)

theorem Fits.isSpelled (h : l.Fits) : l.toJson.IsSpelled := by
  refine isSpelled_object ?_
  simp [h.id.isSpelled, h.listing.isSpelled, h.shop.isSpelled, isSpelled_text,
    isSpelled_signed64 h.quantity, isSpelled_signed64 h.priceRrc]

end OrderLine

namespace Order

variable {o : Order}

/-- The identifiers are of 64 bits, and the calendar has the instant. -/
structure Fits (o : Order) : Prop where
  id : o.id.Fits
  buyer : o.buyer.Fits
  createdAt : o.createdAt.Valid
  contact : ∀ c, o.contact = some c → c.Fits

/-- The order as its text shows it. -/
def shown (o : Order) : Order := { o with createdAt := o.createdAt.shown }

theorem Fits.reads (h : o.Fits) : decoder.Reads o.toJson o.shown := by
  have hcontact : (Decoder.option Id.decoder).Reads (.ofOption Id.toJson o.contact) o.contact :=
    reads_ofOption fun c hc => ⟨(h.contact c hc).reads, rfl⟩
  refine Fills.record (.field rfl rfl (h.id.reads.required _ _) ?_)
  refine .field rfl rfl (h.buyer.reads.required _ _) ?_
  refine .field rfl rfl (o.status.reads.required _ _) ?_
  refine .field rfl rfl (h.createdAt.reads.required _ _) ?_
  exact .field rfl rfl (hcontact.nullable _ _) (.done rfl)

/-- Every member of an order is spelled with what JSON has, its instant being a text. -/
theorem Fits.isSpelled (h : o.Fits) : ∀ m ∈ o.members, m.2.IsSpelled := by
  have hcontact : (Value.ofOption Id.toJson o.contact).IsSpelled := by
    cases hc : o.contact with
    | none => exact isSpelled_null
    | some c => exact (h.contact c hc).isSpelled
  have hstatus : o.status.toJson.IsSpelled := isSpelled_text _
  have hcreated : o.createdAt.toJson.IsSpelled := isSpelled_text _
  simp [members, h.id.isSpelled, h.buyer.isSpelled, hstatus, hcreated, hcontact]

/-- No member of an order nests. -/
theorem depth_members (o : Order) : ∀ m ∈ o.members, m.2.depth = 0 := by
  have hcontact : (Value.ofOption Id.toJson o.contact).depth = 0 := by
    cases o.contact <;> rfl
  simp only [members, List.forall_mem_cons]
  exact ⟨rfl, rfl, rfl, rfl, hcontact, nofun⟩

end Order

namespace OrderDetail

variable {d : OrderDetail}

/-- The parts of the detail and its total fit. -/
structure Fits (d : OrderDetail) : Prop where
  order : d.order.Fits
  lines : ∀ l ∈ d.lines, l.Fits
  contact : ∀ c, d.contact = some c → c.Fits
  total : Signed64 d.total

/-- The details as their text shows them. -/
def shown (d : OrderDetail) : OrderDetail := { d with order := d.order.shown }

theorem shown_eq_self_iff : d.shown = d ↔ d.order.createdAt.Regular := by
  rw [← Instant.shown_eq_self_iff]
  constructor
  · exact fun heq => congrArg (·.order.createdAt) heq
  · intro heq
    unfold shown Order.shown
    rw [heq]

/-- The members of the order are told from those beside them, which have other names. -/
theorem Fits.reads (h : d.Fits) : decoder.Reads d.toJson d.shown := by
  have hlines : (Decoder.list OrderLine.decoder).Reads (.array (d.lines.map OrderLine.toJson))
      d.lines := reads_list fun l hl => (h.lines l hl).reads
  have hcontact : (Decoder.option Contact.decoder).Reads (.ofOption Contact.toJson d.contact)
      d.contact := reads_ofOption fun c hc => ⟨(h.contact c hc).reads, rfl⟩
  have hdepth : (Value.object d.order.members).depth ≤ Json.maxDepth :=
    Nat.le_trans (depth_object_le fun m hm => Nat.le_of_eq (d.order.depth_members m hm)) (by decide)
  refine reads_embedding (t := (⟨d.lines, d.contact, d.total⟩ : Rest)) ?_ ?_ h.order.reads hdepth
  · simp only [Order.members, List.forall_mem_cons]
    exact ⟨rfl, rfl, rfl, rfl, rfl, nofun⟩
  · refine .field rfl rfl (hlines.required _ _) ?_
    refine .field rfl rfl (hcontact.nullable _ _) ?_
    exact .field rfl rfl ((reads_signed64 h.total).required _ _) (.done rfl)

theorem Fits.isSpelled (h : d.Fits) : d.toJson.IsSpelled := by
  have hlines : (Value.array (d.lines.map OrderLine.toJson)).IsSpelled := by
    refine isSpelled_array (List.forall_mem_map.mpr ?_)
    exact fun l hl => (h.lines l hl).isSpelled
  have hcontact : (Value.ofOption Contact.toJson d.contact).IsSpelled := by
    cases hc : d.contact with
    | none => exact isSpelled_null
    | some c => exact (h.contact c hc).isSpelled
  refine isSpelled_object (List.forall_mem_append.mpr ⟨h.order.isSpelled, ?_⟩)
  simp [hlines, hcontact, isSpelled_signed64 h.total]

/-- A detail nests three levels deep at most: itself, the list of its lines, and a line. -/
theorem depth_toJson_le (d : OrderDetail) : d.toJson.depth ≤ 3 := by
  have horder : ∀ m ∈ d.order.members, m.2.depth ≤ 2 := fun m hm =>
    Nat.le_trans (Nat.le_of_eq (d.order.depth_members m hm)) (Nat.zero_le 2)
  have hlines : (Value.array (d.lines.map OrderLine.toJson)).depth ≤ 2 :=
    depth_array_le (List.forall_mem_map.mpr fun _ _ => Nat.le_refl 1)
  have hcontact : (Value.ofOption Contact.toJson d.contact).depth ≤ 2 := by
    cases d.contact with
    | none => exact Nat.zero_le 2
    | some c => exact Nat.le_succ 1
  refine depth_object_le (List.forall_mem_append.mpr ⟨horder, ?_⟩)
  simp only [List.forall_mem_cons]
  exact ⟨hlines, hcontact, Nat.zero_le 2, nofun⟩

/-- The details of an order are read from their text as it shows them. -/
theorem Fits.run (h : d.Fits) : decoder.run d.toJson.render = .ok d.shown :=
  h.reads.run (Nat.le_trans d.depth_toJson_le (by decide)) h.isSpelled

end OrderDetail

end Marketplace
