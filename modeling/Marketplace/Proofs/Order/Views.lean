import Mathlib.Algebra.BigOperators.Group.List.Basic
import Mathlib.Algebra.Order.BigOperators.Group.List
import Mathlib.Algebra.Order.Ring.Int
import Mathlib.Data.List.Nodup
import Mathlib.Data.List.Perm.Basic
import Marketplace.Proofs.Notify.Told
import Marketplace.Proofs.Order.Sequence
import Marketplace.Proofs.Sorting
set_option autoImplicit false

/-!
# What buyers and shops see of orders

A buyer sees the orders that the buyer has placed, and a shop those with items of it.  What a shop
sees of an order is what the buyer sees of it, but for the lines of others (`OrderDetail.ofShop`),
so the shops together see what the buyer sees.
-/

namespace Marketplace

/-! ## Totals -/

/-- What the line comes to, however much that is. -/
def OrderLine.worth (l : OrderLine) : Int := l.quantity * l.priceRrc

namespace OrderDetail

/-- The price of the line times its quantity, however much that is; 64 bits need not hold it. -/
def worth (lines : List OrderLine) : Int := (lines.map OrderLine.worth).sum

/-- The greatest total that 64 bits hold. -/
def maxTotal : Int := Text.IntegerRange.signed64.high

/-- Amounts are not negative, so only the upper bound matters. -/
theorem clamp_eq_min {n : Int} (h : 0 ≤ n) :
    Text.IntegerRange.signed64.clamp n = min n maxTotal := by
  have hlow : ¬n < Text.IntegerRange.signed64.low := by
    have hneg : Text.IntegerRange.signed64.low < 0 := by decide
    omega
  simp only [Text.IntegerRange.clamp, hlow, if_false, maxTotal]
  omega

theorem worth_nonneg {lines : List OrderLine} (h : ∀ l ∈ lines, 0 ≤ l.worth) : 0 ≤ worth lines :=
  List.sum_nonneg fun n hn => by
    obtain ⟨l, hl, rfl⟩ := List.mem_map.mp hn
    exact h l hl

/-- The total is exact as long as 64 bits hold it.  Adding up stops at the greatest number, and as
no line is negative it stays there. -/
theorem sum_eq_min {lines : List OrderLine} (h : ∀ l ∈ lines, 0 ≤ l.worth) :
    sum lines = min (worth lines) maxTotal := by
  -- The sum that has been reached stands for any amount that is cut in the same way.
  have hfrom : ∀ n, 0 ≤ n → lines.foldl (fun acc l =>
      Text.IntegerRange.signed64.clamp (acc + l.total)) (min n maxTotal) =
        min (n + worth lines) maxTotal := by
    have hmax : 0 ≤ maxTotal := by decide
    induction lines with
    | nil =>
      intro n _
      simp [worth]
    | cons l lines ih =>
      intro n hn
      have hl := h l (by simp)
      have hnext : Text.IntegerRange.signed64.clamp (min n maxTotal + l.total) =
          min (n + l.worth) maxTotal := by
        rw [OrderLine.total, ← OrderLine.worth, clamp_eq_min hl, clamp_eq_min (by omega)]
        omega
      rw [List.foldl_cons, hnext, ih (fun k hk => h k (by simp [hk])) _ (by omega)]
      simp only [worth, List.map_cons, List.sum_cons]
      omega
  have hmax : 0 ≤ maxTotal := by decide
  have hall := hfrom 0 (Int.le_refl 0)
  rwa [min_eq_left hmax, Int.zero_add] at hall

end OrderDetail

/-! ## The lines of one shop -/

/-- Rows are parted by a key: taken together again, they are the rows of before.  The sequence is
another one, so this is up to a permutation. -/
theorem flatMap_filter_perm {α κ : Type} [DecidableEq κ] {key : α → κ} {keys : List κ}
    {rows : List α} (hnodup : keys.Nodup) (hkeys : ∀ a ∈ rows, key a ∈ keys) :
    (keys.flatMap fun k => rows.filter fun a => key a == k).Perm rows := by
  induction keys generalizing rows with
  | nil =>
    cases rows with
    | nil => exact .nil
    | cons a rows => exact absurd (hkeys a (by simp)) (by simp)
  | cons k keys ih =>
    obtain ⟨hk, hrest⟩ := List.nodup_cons.mp hnodup
    have hothers : ∀ k' ∈ keys, (rows.filter fun a => key a == k') =
        (rows.filter fun a => !(key a == k)).filter fun a => key a == k' := by
      intro k' hk'
      rw [List.filter_filter]
      refine List.filter_congr fun a _ => ?_
      have hne : k' ≠ k := fun heq => hk (heq ▸ hk')
      by_cases ha : key a = k'
      · simp [ha, hne]
      · simp [ha]
    rw [List.flatMap_cons, List.flatMap_congr hothers]
    refine (List.Perm.append_left _ (ih hrest fun a ha => ?_)).trans (List.filter_append_perm _ _)
    obtain ⟨hrow, hne⟩ := List.mem_filter.mp ha
    exact (List.mem_cons.mp (hkeys a hrow)).resolve_left (by simpa using hne)

namespace OrderDetail

/-- The order with the lines of one shop alone.  Its total is that of these lines, and the contact
stays since the shop has to deliver. -/
def ofShop (d : OrderDetail) (shop : ShopId) : OrderDetail :=
  make d.order (d.lines.filter fun l => l.shop == shop) d.contact

/-- The lines of all shops together are the lines of the order. -/
theorem shops_lines_perm (d : OrderDetail) :
    (d.shops.flatMap fun shop => (d.ofShop shop).lines).Perm d.lines :=
  flatMap_filter_perm d.nodup_shops fun l hl => mem_shops.mpr ⟨l, hl, rfl⟩

/-- No line is one of two shops. -/
theorem ofShop_disjoint (d : OrderDetail) {shop shop' : ShopId} (h : shop ≠ shop') :
    (d.ofShop shop).lines.Disjoint (d.ofShop shop').lines := by
  intro l hl hl'
  have hshop := (List.mem_filter.mp hl).2
  have hshop' := (List.mem_filter.mp hl').2
  rw [beq_iff_eq] at hshop hshop'
  exact h (hshop.symm.trans hshop')

/-- The totals of the shops add up to the total of the order if that is exact.  If it is not, some
shop's total may be exact still, so that the sum may be greater. -/
theorem sum_ofShop_total (d : OrderDetail) (h : ∀ l ∈ d.lines, 0 ≤ l.worth)
    (hmax : worth d.lines ≤ maxTotal) :
    (d.shops.map fun shop => (d.ofShop shop).total).sum = sum d.lines := by
  have hwhole : (d.shops.map fun shop => worth (d.ofShop shop).lines).sum = worth d.lines := by
    rw [worth, ← (d.shops_lines_perm.map OrderLine.worth).sum_eq, List.map_flatMap, List.flatMap,
      List.sum_flatten, List.map_map]
    rfl
  have hpart : ∀ shop, ∀ l ∈ (d.ofShop shop).lines, 0 ≤ l.worth :=
    fun shop l hl => h l (List.mem_filter.mp hl).1
  rw [sum_eq_min h, min_eq_left hmax, ← hwhole]
  refine congrArg List.sum (List.map_congr_left fun shop hshop => ?_)
  have hle : worth (d.ofShop shop).lines ≤ worth d.lines := by
    rw [← hwhole]
    refine List.single_le_sum (fun n hn => ?_) _ (List.mem_map_of_mem hshop)
    obtain ⟨s, -, rfl⟩ := List.mem_map.mp hn
    exact worth_nonneg (hpart s)
  have htotal : (d.ofShop shop).total = sum (d.ofShop shop).lines := rfl
  rw [htotal, sum_eq_min (hpart shop), min_eq_left (Int.le_trans hle hmax)]

end OrderDetail

/-! ## Lists of orders -/

/-- The first order was made later than the second one, or at the same time and then has the greater
identifier. -/
def OrderDetail.Newer (d e : OrderDetail) : Prop :=
  e.order.createdAt.lt d.order.createdAt = true ∨
    d.order.createdAt = e.order.createdAt ∧ e.order.id.value < d.order.id.value

/-- The details are those of the orders that the condition picks, each once, newest first.  These
fields determine the list, since no two orders are equally new. -/
structure NewestFirst (ds : List OrderDetail) (picked : Order → Prop) : Prop where
  newest : ds.Pairwise OrderDetail.Newer
  orders : ∀ o, (∃ d ∈ ds, d.order = o) ↔ picked o

namespace OrderBook

variable {b : OrderBook} {line? : OrderItem → Option OrderLine} {d e : OrderDetail}

/-- Details are compared by the seconds, the nanoseconds and the identifiers of their orders.  A
leap second counts as later than the second that it follows. -/
theorem isNewer_iff : isNewer d e = true ↔
    e.order.createdAt.seconds < d.order.createdAt.seconds ∨
      e.order.createdAt.seconds = d.order.createdAt.seconds ∧
        (e.order.createdAt.nanos < d.order.createdAt.nanos ∨
          e.order.createdAt.nanos = d.order.createdAt.nanos ∧
            e.order.id.value ≤ d.order.id.value) := by
  have htime : d.order.createdAt = e.order.createdAt ↔
      d.order.createdAt.seconds = e.order.createdAt.seconds ∧
        d.order.createdAt.nanos = e.order.createdAt.nanos := by
    cases d.order.createdAt
    cases e.order.createdAt
    exact Instant.mk.injEq _ _ _ _ ▸ Iff.rfl
  simp only [isNewer, Instant.lt, Instant.le, Id.le, Bool.or_eq_true, Bool.and_eq_true,
    Bool.not_eq_true', Bool.or_eq_false_iff, Bool.and_eq_false_iff, beq_iff_eq, decide_eq_true_eq,
    decide_eq_false_iff_not, beq_eq_false_iff_ne, htime, ne_eq]
  omega

/-- Details of different orders are sorted newest first. -/
theorem pairwise_newer {rows : List OrderDetail}
    (h : rows.Pairwise fun d e => d.order.id ≠ e.order.id) :
    (rows.mergeSort isNewer).Pairwise OrderDetail.Newer := by
  have hnodup : rows.Nodup := h.imp fun hne heq => hne (by rw [heq])
  refine pairwise_mergeSort_strict (fun d e f hde hef => ?_) (fun d e => ?_) hnodup
    fun d hd e he hne hle => ?_
  · rw [isNewer_iff] at hde hef ⊢
    omega
  · rw [Bool.or_eq_true, isNewer_iff, isNewer_iff]
    omega
  · have hid : e.order.id ≠ d.order.id := fun heq =>
      hne (List.inj_on_of_nodup_map (List.pairwise_map.mpr h) hd he heq.symm)
    simp only [isNewer, Bool.or_eq_true, Bool.and_eq_true, beq_iff_eq] at hle
    exact hle.imp_right fun ⟨htime, hle⟩ => ⟨htime, Id.lt_of_le hle hid⟩

/-- A stored order stands under its identifier. -/
theorem Lawful.mem_orders_iff (hb : b.Lawful) {o : Order} :
    o ∈ b.orders.values ↔ b.orders.get? o.id = some o :=
  Table.mem_values_iff_get? (hb.orders.imp fun _ _ ho => ho.1)

/-- A buyer is shown the orders that the buyer has placed. -/
theorem mem_ordersOfBuyer (hb : b.Lawful) {buyer : UserId} :
    d ∈ b.ordersOfBuyer line? buyer ↔ ∃ o, (b.orders.get? o.id = some o ∧ o.status ≠ .basket ∧
      o.buyer = buyer) ∧ d = b.detail line? o (b.itemsOf o.id) := by
  simp only [ordersOfBuyer, List.mem_mergeSort, List.mem_map, List.mem_filter, hb.mem_orders_iff,
    Order.isBasket, Bool.and_eq_true, Bool.not_eq_true', beq_iff_eq, beq_eq_false_iff_ne, ne_eq]
  refine exists_congr fun o => ?_
  rw [eq_comm (a := d)]
  exact and_congr_left fun _ => and_congr_right fun _ => And.comm

/-- A shop is shown the placed orders with items of the shop, with these items alone. -/
theorem mem_ordersOfShop (hb : b.Lawful) {shop : ShopId} :
    d ∈ b.ordersOfShop line? shop ↔ ∃ o, (b.orders.get? o.id = some o ∧ o.status ≠ .basket ∧
      ∃ i ∈ b.itemsOf o.id, i.shop = shop) ∧
        d = b.detail line? o ((b.itemsOf o.id).filter fun i => i.shop == shop) := by
  simp only [ordersOfShop, List.mem_mergeSort, List.mem_filterMap, List.mem_filter,
    hb.mem_orders_iff, Order.isBasket, Bool.not_eq_true', beq_eq_false_iff_ne, ne_eq]
  refine exists_congr fun o => ?_
  have hempty : ((b.itemsOf o.id).filter fun i => i.shop == shop).isEmpty = true ↔
      ¬∃ i ∈ b.itemsOf o.id, i.shop = shop := by
    simp
  by_cases hitem : ∃ i ∈ b.itemsOf o.id, i.shop = shop
  · rw [if_neg (by rw [hempty]; exact not_not_intro hitem), Option.some.injEq, eq_comm (a := d)]
    simp only [hitem, and_true]
  · rw [if_pos (hempty.mpr hitem)]
    simp [hitem]

/-- The list is sorted by what is compared, and no order is in it twice. -/
theorem newestFirst_ordersOfBuyer (hb : b.Lawful) (buyer : UserId) :
    NewestFirst (b.ordersOfBuyer line? buyer) fun o =>
      b.orders.get? o.id = some o ∧ o.status ≠ .basket ∧ o.buyer = buyer where
  newest := by
    refine pairwise_newer (List.pairwise_map.mpr ?_)
    have hids := Table.pairwise_values (hb.orders.imp fun _ _ ho => ho.1)
    exact hids.filter _
  orders := by
    intro o
    simp only [mem_ordersOfBuyer hb]
    constructor
    · rintro ⟨d, ⟨p, hp, rfl⟩, rfl⟩
      exact hp
    · intro ho
      exact ⟨_, ⟨o, ho, rfl⟩, rfl⟩

theorem newestFirst_ordersOfShop (hb : b.Lawful) (shop : ShopId) :
    NewestFirst (b.ordersOfShop line? shop) fun o =>
      b.orders.get? o.id = some o ∧ o.status ≠ .basket ∧ ∃ i ∈ b.itemsOf o.id, i.shop = shop where
  newest := by
    have hids := Table.pairwise_values (hb.orders.imp fun _ _ ho => ho.1)
    refine pairwise_newer (List.Pairwise.filterMap _ (fun o p hne d hd e he => ?_) (hids.filter _))
    dsimp only at hd he
    split at hd
    · cases hd
    · split at he
      · cases he
      · cases hd
        cases he
        exact hne
  orders := by
    intro o
    simp only [mem_ordersOfShop hb]
    constructor
    · rintro ⟨d, ⟨p, hp, rfl⟩, rfl⟩
      exact hp
    · intro ho
      exact ⟨_, ⟨o, ho, rfl⟩, rfl⟩

/-! ## The shops' lists and the buyer's list -/

/-- Where lines are of the shops of their items, a shop is shown an order like the buyer, but for
the lines of others. -/
theorem detail_ofShop (hline : ∀ i l, line? i = some l → l.shop = i.shop) (o : Order)
    (items : List OrderItem) (shop : ShopId) :
    b.detail line? o (items.filter fun i => i.shop == shop) =
      (b.detail line? o items).ofShop shop := by
  have hlines : (items.filter fun i => i.shop == shop).filterMap line? =
      (items.filterMap line?).filter fun l => l.shop == shop := by
    rw [List.filterMap_filter, List.filter_filterMap]
    refine List.filterMap_congr fun i _ => ?_
    cases hi : line? i with
    | none => simp
    | some l => simp [Option.filter, hline i l hi]
  unfold detail
  rw [hlines]
  rfl

end OrderBook

/-- The lists of the shops divide the order: each shop that has lines in it is shown the order with
these lines, no line is shown to two, and together they are shown the lines of the order. -/
structure OrderDetail.Divided (d : OrderDetail) (ofShop : ShopId → List OrderDetail) : Prop where
  shown : ∀ shop ∈ d.shops, d.ofShop shop ∈ ofShop shop
  same : ∀ shop, ∀ e ∈ ofShop shop, e.order.id = d.order.id → e = d.ofShop shop
  apart : ∀ shop shop', shop ≠ shop' → (d.ofShop shop).lines.Disjoint (d.ofShop shop').lines
  together : (d.shops.flatMap fun shop => (d.ofShop shop).lines).Perm d.lines
  total : OrderDetail.worth d.lines ≤ OrderDetail.maxTotal →
    (d.shops.map fun shop => (d.ofShop shop).total).sum = d.total

namespace OrderBook

variable {b : OrderBook} {line? : OrderItem → Option OrderLine} {d : OrderDetail}

/-- The lists of the shops part the lines of an order that the buyer is shown: each shop sees its
own, and together they see all. -/
theorem divided (hb : b.Lawful) (hline : ∀ i l, line? i = some l → l.shop = i.shop)
    (hworth : ∀ k i l, b.items.get? k = some i → line? i = some l → 0 ≤ l.worth) {buyer : UserId}
    (hd : d ∈ b.ordersOfBuyer line? buyer) : d.Divided (b.ordersOfShop line?) := by
  obtain ⟨o, ⟨ho, hplaced, -⟩, rfl⟩ := (mem_ordersOfBuyer hb).mp hd
  have hsource : ∀ l ∈ (b.detail line? o (b.itemsOf o.id)).lines,
      ∃ i ∈ b.itemsOf o.id, line? i = some l := fun l hl => List.mem_filterMap.mp hl
  constructor
  · intro shop hshop
    obtain ⟨l, hl, rfl⟩ := OrderDetail.mem_shops.mp hshop
    obtain ⟨i, hi, hil⟩ := hsource l hl
    refine (mem_ordersOfShop hb).mpr ⟨o, ⟨ho, hplaced, i, hi, (hline i l hil).symm⟩, ?_⟩
    rw [detail_ofShop hline]
  · intro shop e he hid
    obtain ⟨p, ⟨hp, -⟩, rfl⟩ := (mem_ordersOfShop hb).mp he
    have hsame : p.id = o.id := hid
    rw [hsame, ho] at hp
    cases hp
    exact detail_ofShop hline _ _ _
  · exact fun shop shop' hne => OrderDetail.ofShop_disjoint _ hne
  · exact OrderDetail.shops_lines_perm _
  · refine OrderDetail.sum_ofShop_total _ fun l hl => ?_
    obtain ⟨i, hi, hil⟩ := hsource l hl
    obtain ⟨⟨k, hk⟩, -⟩ := mem_itemsOf.mp hi
    exact hworth k i l hk hil

/-- The items of an order stand in the sequence of their identifiers. -/
theorem pairwise_itemsOf (hitems : b.items.Ascending)
    (hids : b.items.All fun k i => i.id = k) (order : OrderId) :
    (b.itemsOf order).Pairwise fun i j => i.id.value < j.id.value := by
  refine List.Pairwise.filter _ (List.pairwise_map.mpr ?_)
  have hkeys := List.pairwise_map.mp hitems
  refine hkeys.imp_of_mem fun {e e'} he he' hlt => ?_
  rwa [hids e.1 e.2 (Table.mem_entries_iff.mp he), hids e'.1 e'.2 (Table.mem_entries_iff.mp he')]

end OrderBook

namespace Store

variable {s : Store}

theorem line?_eq_some {c : Catalog} {i : OrderItem} {line : OrderLine}
    (h : line? c i = some line) : ∃ l, c.listings.get? i.listing = some l ∧
      line.shop = i.shop ∧ line.quantity = i.quantity ∧ line.priceRrc = l.priceRrc := by
  obtain ⟨l, hl, h⟩ := Option.bind_eq_some_iff.mp h
  obtain ⟨p, -, h⟩ := Option.bind_eq_some_iff.mp h
  obtain ⟨s, -, rfl⟩ := Option.map_eq_some_iff.mp h
  exact ⟨l, hl, rfl, rfl, rfl⟩

end Store

namespace Pool

variable {P : Pool}

/-- Whatever has happened, a buyer is shown the orders that the buyer has placed, and a shop the
placed orders with items of the shop, both newest first.  An order has a line for each item whose
listing is there, by identifier, which is each of its items unless a commit is between its halves;
and what the shops are shown of it is together what the buyer is shown. -/
theorem Reachable.orders_shown (h : P.Reachable Program.AddsByService) :
    let s := P.world.store
    let ofBuyer := s.book.ordersOfBuyer (Store.line? s.catalog)
    let ofShop := s.book.ordersOfShop (Store.line? s.catalog)
    (∀ buyer, (Orders.ofBuyer buyer).run.run World.handle P.world =
        some (.ok (ofBuyer buyer), P.world) ∧
      NewestFirst (ofBuyer buyer) fun o =>
        s.book.orders.get? o.id = some o ∧ o.status ≠ .basket ∧ o.buyer = buyer) ∧
      (∀ shop, (Service.orders (.ofShop shop)).run.run World.handle P.world =
          some (.ok (ofShop shop), P.world) ∧
        NewestFirst (ofShop shop) fun o =>
          s.book.orders.get? o.id = some o ∧ o.status ≠ .basket ∧
            ∃ i ∈ s.book.itemsOf o.id, i.shop = shop) ∧
      ∀ buyer, ∀ d ∈ ofBuyer buyer,
        d.lines.Pairwise (fun l m => l.id.value < m.id.value) ∧
          d.lines.map (OrderLine.item d.order.id) = (s.book.itemsOf d.order.id).filter
            (fun i => s.catalog.listings.contains i.listing) ∧
          (P.Quiet → d.lines.map (OrderLine.item d.order.id) = s.book.itemsOf d.order.id) ∧
          d.Divided ofShop := by
  intro s ofBuyer ofShop
  have hcatalog := h.store.sound.catalog
  have hbook := h.book.items
  have hlawful : s.book.Lawful := h.lawful
  refine ⟨fun buyer => ⟨rfl, OrderBook.newestFirst_ordersOfBuyer hlawful buyer⟩,
    fun shop => ⟨rfl, OrderBook.newestFirst_ordersOfShop hlawful shop⟩, fun buyer d hd => ?_⟩
  have hdivided : d.Divided ofShop := by
    refine OrderBook.divided hlawful (fun i line hline => ?_) (fun k i line hi hline => ?_) hd
    · obtain ⟨-, -, hshop, -⟩ := Store.line?_eq_some hline
      exact hshop
    · obtain ⟨l, hl, -, hquantity, hprice⟩ := Store.line?_eq_some hline
      have hpieces := (hbook k i hi).2.2.1
      have hpriced := (hcatalog.listings _ l hl).2.2.2.2.1
      rw [OrderLine.worth, hquantity, hprice]
      exact Int.mul_nonneg (by omega) hpriced
  obtain ⟨o, -, rfl⟩ := (OrderBook.mem_ordersOfBuyer hlawful).mp hd
  have hitems : (s.book.detail (Store.line? s.catalog) o (s.book.itemsOf o.id)).lines.map
      (OrderLine.item o.id) =
        (s.book.itemsOf o.id).filter fun i => s.catalog.listings.contains i.listing := by
    refine OrderBook.lines_item (fun i hi hlisted => ?_) fun i _ hgone => ?_
    · obtain ⟨⟨k, hk⟩, horder⟩ := OrderBook.mem_itemsOf.mp hi
      obtain ⟨l, hl⟩ := Table.contains_iff.mp hlisted
      obtain ⟨-, -, -, -, hshop⟩ := h.vouched.1.items k i hk
      rw [← horder]
      exact hcatalog.exists_line hl (hshop _ (Or.inl rfl) l hl)
    · rw [Store.line?, Table.contains_eq_false_iff.mp hgone]
      rfl
  refine ⟨?_, hitems, fun hquiet => ?_, hdivided⟩
  · have hsequence := (OrderBook.pairwise_itemsOf h.items_ascending
      (hbook.imp fun _ _ hi => hi.1) o.id).filter fun i => s.catalog.listings.contains i.listing
    rw [← hitems] at hsequence
    have hlines := List.pairwise_map.mp hsequence
    exact hlines
  · refine hitems.trans (List.filter_eq_self.mpr fun i hi => ?_)
    obtain ⟨⟨k, hk⟩, -⟩ := OrderBook.mem_itemsOf.mp hi
    exact (hbook k i hk).2.2.2 hquiet

/-- A buyer has ordered a phone from each of two shops: both are shown their own line. -/
theorem Reachable.orders_shown_in_twoShopOrder : ∃ (P : Pool) (d : OrderDetail),
    P.Reachable Program.AddsByService ∧ P.Quiet ∧
      d ∈ P.world.store.book.ordersOfBuyer (Store.line? P.world.store.catalog) ⟨7⟩ ∧
      d.lines.map (OrderLine.item ⟨1⟩) = [⟨⟨1⟩, ⟨1⟩, ⟨1⟩, ⟨1⟩, 3⟩, ⟨⟨2⟩, ⟨1⟩, ⟨2⟩, ⟨2⟩, 1⟩] ∧
      d.ofShop ⟨1⟩ ∈ P.world.store.book.ordersOfShop (Store.line? P.world.store.catalog) ⟨1⟩ ∧
      d.ofShop ⟨2⟩ ∈ P.world.store.book.ordersOfShop (Store.line? P.world.store.catalog) ⟨2⟩ ∧
      (d.ofShop ⟨1⟩).total + (d.ofShop ⟨2⟩).total = d.total := by
  let shown (P : Pool) (o : Order) : OrderDetail :=
    P.world.store.book.detail (Store.line? P.world.store.catalog) o
      (P.world.store.book.itemsOf o.id)
  let o : Order := ⟨⟨1⟩, ⟨7⟩, .new, ⟨0, 0⟩, some ⟨1⟩⟩
  have hplay : (Pool.play Notify.twoShopSteps ⟨.start ⟨0, 0⟩ 3,
      (Notify.twoShopOrder "one@example.com" "two@example.com").map .start⟩).any (fun P =>
        decide (P.world.store.draft = none ∧ P.world.store.book.orders.get? ⟨1⟩ = some o ∧
          P.world.store.book.itemsOf ⟨1⟩ = [⟨⟨1⟩, ⟨1⟩, ⟨1⟩, ⟨1⟩, 3⟩, ⟨⟨2⟩, ⟨1⟩, ⟨2⟩, ⟨2⟩, 1⟩] ∧
          (shown P o).shops = [⟨1⟩, ⟨2⟩] ∧
          OrderDetail.worth (shown P o).lines ≤ OrderDetail.maxTotal)) = true := by
    decide +kernel
  obtain ⟨P, hP, hfacts⟩ := (Option.any_eq_true _ _).mp hplay
  obtain ⟨hdraft, ho, hitems, hshops, hworth⟩ := of_decide_eq_true hfacts
  have hadmitted := Notify.throughServices_twoShopOrder "one@example.com" "two@example.com"
  have hreach : P.Reachable Program.AddsByService :=
    (Pool.Reachable.begin ⟨0, 0⟩ 3 fun p hp => (hadmitted p hp).addsByService).play hP
  have hquiet := hreach.orderly.quiet hdraft
  have hd : shown P o ∈ P.world.store.book.ordersOfBuyer (Store.line? P.world.store.catalog) ⟨7⟩ :=
    (OrderBook.mem_ordersOfBuyer hreach.lawful).mpr ⟨o, ⟨ho, by decide, rfl⟩, rfl⟩
  obtain ⟨-, -, hshown⟩ := hreach.orders_shown
  obtain ⟨-, -, hlines, hdivided⟩ := hshown ⟨7⟩ _ hd
  have htotal := hdivided.total hworth
  rw [hshops] at htotal
  refine ⟨P, shown P o, hreach, hquiet, hd, (hlines hquiet).trans hitems, ?_, ?_, ?_⟩
  · exact hdivided.shown ⟨1⟩ (by rw [hshops]; decide)
  · exact hdivided.shown ⟨2⟩ (by rw [hshops]; decide)
  · simpa using htotal

end Pool

end Marketplace
