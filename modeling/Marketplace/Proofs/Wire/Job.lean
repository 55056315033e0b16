import Marketplace.Job.Payload
import Marketplace.Job.Retry
import Marketplace.Job.Status
import Marketplace.Proofs.Wire.Order
set_option autoImplicit false

/-!
# Jobs as JSON

What a job is to do, where it stands and how often it runs are read back from what is written of
them.  The identifiers are of 64 bits and the counts of runs of 32.

The first two are written in several shapes: the work is told apart by its member `kind`, and where
a job stands is a bare name or an object with one member.  Their readers look at the name before
they choose what to read next, so a proof that one reads follows the constructors.
-/

namespace Marketplace

open Json (Value Decoder)
open Json.Value
open Json.Decoder

theorem Json.Value.isSpelled_nat {bits n : Nat} (hbits : bits ≤ 64) (h : n < 2 ^ bits) :
    (Value.nat n).IsSpelled := by
  have hpow : 2 ^ bits ≤ 2 ^ 64 := Nat.pow_le_pow_right (by decide) hbits
  have hn : (n : Int) < 2 ^ 64 := by exact_mod_cast Nat.lt_of_lt_of_le h hpow
  exact isSpelled_int (by omega) hn

/-! ## Work -/

/-- Either kind of source is an object with one member, whose name tells which kind it is. -/
theorem PriceListSource.reads (s : PriceListSource) : decoder.Reads s.toJson s := by
  cases s with
  | path p => exact reads_oneOf_carrying rfl ((reads_text p).map path)
  | document t => exact reads_oneOf_carrying rfl ((reads_text t).map document)

theorem PriceListSource.isSpelled (s : PriceListSource) : s.toJson.IsSpelled := by
  cases s <;> exact isSpelled_object (List.forall_mem_singleton.mpr (isSpelled_text _))

theorem PriceListSource.depth_toJson (s : PriceListSource) : s.toJson.depth = 1 := by
  cases s <;> rfl

namespace JobPayload

variable {p : JobPayload}

/-- The identifiers are of 64 bits. -/
def Fits : JobPayload → Prop
  | .importPriceList _ user => user.Fits
  | .notifyOrderPlaced buyer order => buyer.Fits ∧ order.Fits

/-- The kind of work is read from its name. -/
theorem kind_reads (k : JobKind) : (Decoder.filterMap JobKind.ofName? .text).Reads k.toJson k := by
  refine (reads_text k.name).filterMap ?_
  cases k <;> rfl

/-- Once the kind is known, the other members are those of the record for that kind. -/
theorem Fits.members_reads (h : p.Fits) : (bodyDecoder p.kind).Reads (.object p.members) p := by
  cases p with
  | importPriceList source user =>
    refine (Fills.record (s := (source, user)) ?_).map fun q => importPriceList q.1 q.2
    exact .field rfl rfl (source.reads.required _ _)
      (.field rfl rfl ((Id.Fits.reads h).required _ _) (.done rfl))
  | notifyOrderPlaced buyer order =>
    refine (Fills.record (s := (buyer, order)) ?_).map fun q => notifyOrderPlaced q.1 q.2
    exact .field rfl rfl (h.1.reads.required _ _)
      (.field rfl rfl (h.2.reads.required _ _) (.done rfl))

theorem depth_members_le (p : JobPayload) : ∀ m ∈ p.members, m.2.depth ≤ 1 := by
  cases p with
  | importPriceList source user =>
    simp only [members, List.forall_mem_cons]
    exact ⟨Nat.le_of_eq source.depth_toJson, Nat.zero_le 1, nofun⟩
  | notifyOrderPlaced buyer order =>
    simp only [members, List.forall_mem_cons]
    exact ⟨Nat.zero_le 1, Nat.zero_le 1, nofun⟩

/-- The member `kind` is set aside before the others are read, so no other member may have its
name. -/
theorem Fits.reads (h : p.Fits) : decoder.Reads p.toJson p := by
  have hkept : ∀ m ∈ p.members, m.1 ≠ "kind" := by
    cases p <;> simp [members]
  exact reads_tagged hkept (kind_reads p.kind) h.members_reads
    (Nat.le_trans (depth_object_le p.depth_members_le) (by decide))

theorem Fits.isSpelled (h : p.Fits) : p.toJson.IsSpelled := by
  refine isSpelled_object (List.forall_mem_cons.mpr ⟨isSpelled_text _, ?_⟩)
  cases p with
  | importPriceList source user =>
    simp [members, source.isSpelled, Id.Fits.isSpelled h]
  | notifyOrderPlaced buyer order =>
    simp [members, h.1.isSpelled, h.2.isSpelled]

theorem depth_toJson_le (p : JobPayload) : p.toJson.depth ≤ 2 :=
  depth_object_le (List.forall_mem_cons.mpr ⟨Nat.zero_le 1, p.depth_members_le⟩)

/-- The work of a job is read back from its text. -/
theorem Fits.run (h : p.Fits) : decoder.run p.toJson.render = .ok p :=
  h.reads.run (Nat.le_trans p.depth_toJson_le (by decide)) h.isSpelled

end JobPayload

/-! ## Standing -/

namespace JobStatus

variable {s : JobStatus}

/-- The number of runs is one of 32 bits. -/
def Fits : JobStatus → Prop
  | .retrying _ attempt => attempt < 2 ^ 32
  | .failed _ attempts => attempts < 2 ^ 32
  | _ => True

/-- A text and a number under two names make one report.  The names must differ, or the second
member would be a duplicate of the first one. -/
theorem report_reads {n : Nat} (h : n < 2 ^ 32) (s text number : String) (hne : number ≠ text) :
    (reportDecoder text number).Reads (.object [(text, .text s), (number, .nat n)]) (s, n) := by
  let first : Decoder.Field (String × Nat) := .required text .text fun v p => (v, p.2)
  let second : Decoder.Field (String × Nat) := .required number (.natural 32) fun v p => (p.1, v)
  have hfirst : findField [first, second] text = some (0, first) := by
    simp [findField, first, Field.required]
  have hsecond : findField [first, second] number = some (1, second) := by
    simp [findField, first, second, Field.required, hne]
  have hreads : first.read.Reads (.text s) fun p => (s, p.2) := (reads_text s).required text _
  have hnumber : second.read.Reads (.nat n) fun p => (p.1, n) := (reads_natural h).required number _
  exact Fills.record (.field hfirst rfl hreads (.field hsecond rfl hnumber (.done rfl)))

theorem Fits.reads (h : s.Fits) : decoder.Reads s.toJson s := by
  cases s with
  | pending => exact reads_oneOf_plain rfl
  | running => exact reads_oneOf_plain rfl
  | succeeded => exact reads_oneOf_plain rfl
  | retrying error attempt =>
    have hreport := report_reads h error "error" "attempt" (by decide)
    exact reads_oneOf_carrying rfl (hreport.map fun p => retrying p.1 p.2)
  | failed reason attempts =>
    have hreport := report_reads h reason "reason" "attempts" (by decide)
    exact reads_oneOf_carrying rfl (hreport.map fun p => failed p.1 p.2)

theorem Fits.isSpelled (h : s.Fits) : s.toJson.IsSpelled := by
  have hreport {n : Nat} (hn : n < 2 ^ 32) (s text number : String) :
      (Value.object [(text, .text s), (number, .nat n)]).IsSpelled := by
    refine isSpelled_object ?_
    simp [isSpelled_text, isSpelled_nat (by decide) hn]
  cases s with
  | pending | running | succeeded => exact isSpelled_text _
  | retrying error attempt | failed reason attempts =>
    exact isSpelled_object (List.forall_mem_singleton.mpr (hreport h _ _ _))

theorem depth_toJson_le (s : JobStatus) : s.toJson.depth ≤ 2 := by
  cases s <;> simp [toJson, Value.depth, Value.membersDepth, Value.nat]

/-- Where a job stands is read back from its text. -/
theorem Fits.run (h : s.Fits) : decoder.run s.toJson.render = .ok s :=
  h.reads.run (Nat.le_trans s.depth_toJson_le (by decide)) h.isSpelled

end JobStatus

/-! ## Rests -/

namespace Span

theorem seconds_lt (s : Span) : s.seconds < 2 ^ 64 := by
  have hlt : s.nanos < 2 ^ 64 * nanosPerSecond := s.nanos_lt
  exact Nat.div_lt_of_lt_mul (by rwa [Nat.mul_comm])

theorem subNanos_lt (s : Span) : s.subNanos < 2 ^ 32 :=
  Nat.lt_trans (Nat.mod_lt _ (by decide)) (by decide : nanosPerSecond < 2 ^ 32)

theorem ofParts?_parts (s : Span) : ofParts? (s.seconds, s.subNanos) = some s := by
  have hsum : s.seconds * nanosPerSecond + s.subNanos = s.nanos := Nat.div_add_mod' _ _
  simp only [ofParts?, hsum, s.nanos_lt, dif_pos]

theorem reads (s : Span) : decoder.Reads s.toJson s := by
  refine (Fills.closedRecord (s := (s.seconds, s.subNanos)) ?_).filterMap s.ofParts?_parts
  exact .field rfl rfl ((reads_natural s.seconds_lt).required _ _)
    (.field rfl rfl ((reads_natural s.subNanos_lt).required _ _) (.done rfl))

theorem isSpelled (s : Span) : s.toJson.IsSpelled := by
  refine isSpelled_object ?_
  simp [isSpelled_nat (Nat.le_refl 64) s.seconds_lt, isSpelled_nat (by decide) s.subNanos_lt]

end Span

theorem Backoff.reads (b : Backoff) : decoder.Reads b.toJson b := by
  refine reads_oneOf_plain ?_
  cases b <;> rfl

namespace RetryPolicy

variable {p : RetryPolicy}

/-- The number of runs is one of 32 bits. -/
def Fits (p : RetryPolicy) : Prop := p.maxAttempts < 2 ^ 32

theorem Fits.reads (h : p.Fits) : decoder.Reads p.toJson p := by
  refine Fills.record (.field rfl rfl ((reads_natural h).required _ _) ?_)
  refine .field rfl rfl (p.baseDelay.reads.required _ _) ?_
  refine .field rfl rfl (p.maxDelay.reads.required _ _) ?_
  exact .field rfl rfl (p.backoff.reads.required _ _) (.done rfl)

theorem Fits.isSpelled (h : p.Fits) : p.toJson.IsSpelled := by
  have hbackoff : p.backoff.toJson.IsSpelled := isSpelled_text _
  refine isSpelled_object ?_
  simp [isSpelled_nat (by decide) h, p.baseDelay.isSpelled, p.maxDelay.isSpelled, hbackoff]

theorem depth_toJson (p : RetryPolicy) : p.toJson.depth = 2 := rfl

/-- A retry policy is read back from its text. -/
theorem Fits.run (h : p.Fits) : decoder.run p.toJson.render = .ok p :=
  h.reads.run (Nat.le_trans (Nat.le_of_eq p.depth_toJson) (by decide)) h.isSpelled

end RetryPolicy

/-! ## All of them -/

/-- The work of jobs, where they stand and their retry policies are read back from their texts, and
so are the details of orders, but for a leap second within a minute: the text of an order that was
made in one shows the second after it, and that is what is read. -/
theorem run_render_of_fits :
    (∀ d : OrderDetail, d.Fits → OrderDetail.decoder.run d.toJson.render = .ok d.shown ∧
      (OrderDetail.decoder.run d.toJson.render = .ok d ↔ d.order.createdAt.Regular)) ∧
      (∀ p : JobPayload, p.Fits → JobPayload.decoder.run p.toJson.render = .ok p) ∧
      (∀ s : JobStatus, s.Fits → JobStatus.decoder.run s.toJson.render = .ok s) ∧
      ∀ p : RetryPolicy, p.Fits → RetryPolicy.decoder.run p.toJson.render = .ok p := by
  refine ⟨fun d h => ⟨h.run, ?_⟩, fun _ h => h.run, fun _ h => h.run, fun _ h => h.run⟩
  rw [h.run, Except.ok.injEq, OrderDetail.shown_eq_self_iff]

/-- An order of a leap second at the end of the first minute of the calendar, with the least and the
greatest numbers and with texts of quotes, controls and letters beyond ASCII. -/
def OrderDetail.atTheEdge : OrderDetail where
  order := ⟨⟨2 ^ 63 - 1⟩, ⟨-2 ^ 63⟩, .canceled, ⟨Instant.minSeconds + 59, 1999999999⟩, some ⟨0⟩⟩
  lines := [⟨⟨1⟩, ⟨2⟩, ⟨3⟩, "\"Acme\"\n\x00", "Молоток \\", "", -2 ^ 63, 2 ^ 63 - 1⟩]
  contact := some ⟨⟨4⟩, ⟨5⟩, ⟨"Москва", "items", "1", "", "", "", "+7"⟩⟩
  total := -2 ^ 63

theorem OrderDetail.fits_atTheEdge : OrderDetail.atTheEdge.Fits := by
  have hline : ∀ l ∈ OrderDetail.atTheEdge.lines, l.Fits := by
    simp only [OrderDetail.atTheEdge, List.forall_mem_singleton]
    exact ⟨by decide, by decide, by decide, by decide, by decide⟩
  have horder : OrderDetail.atTheEdge.order.Fits :=
    ⟨by decide, by decide, ⟨by decide, by decide, by decide⟩, by
      rintro c ⟨⟩
      decide⟩
  have hcontact : ∀ c, OrderDetail.atTheEdge.contact = some c → c.Fits := by
    rintro c ⟨⟩
    exact ⟨by decide, by decide⟩
  exact ⟨horder, hline, hcontact, by decide⟩

theorem run_render_atTheEdge :
    OrderDetail.decoder.run OrderDetail.atTheEdge.toJson.render = .ok .atTheEdge ∧
      JobPayload.decoder.run
          (JobPayload.importPriceList (.document "shop: \"A\"\n") ⟨-2 ^ 63⟩).toJson.render =
        .ok (.importPriceList (.document "shop: \"A\"\n") ⟨-2 ^ 63⟩) ∧
      JobStatus.decoder.run (JobStatus.failed "\t" (2 ^ 32 - 1)).toJson.render =
        .ok (.failed "\t" (2 ^ 32 - 1)) ∧
      RetryPolicy.decoder.run
          (RetryPolicy.fixed (2 ^ 32 - 1) (.ofNanos Span.maxNanos)).toJson.render =
        .ok (.fixed (2 ^ 32 - 1) (.ofNanos Span.maxNanos)) := by
  obtain ⟨hdetail, hpayload, hstatus, hpolicy⟩ := run_render_of_fits
  have hregular : OrderDetail.atTheEdge.order.createdAt.Regular := by decide
  refine ⟨(hdetail _ OrderDetail.fits_atTheEdge).2.mpr hregular, hpayload _ ?_, hstatus _ ?_,
    hpolicy _ ?_⟩
  · change Signed64 (-2 ^ 63)
    decide
  · change 2 ^ 32 - 1 < 2 ^ 32
    decide
  · change 2 ^ 32 - 1 < 2 ^ 32
    decide

/-- An order of the leap second after 23:56:04 on the last of June 2015, which is in the middle of a
minute. -/
def OrderDetail.withinMinute : OrderDetail where
  order := ⟨⟨1⟩, ⟨1⟩, .new, ⟨1435708564, 1333333333⟩, none⟩
  lines := []
  contact := none
  total := 0

/-- That order fits and is not read back: its text shows 23:56:05 and a third of a second. -/
theorem not_run_render_withinMinute : OrderDetail.withinMinute.Fits ∧
    OrderDetail.withinMinute.order.createdAt.text = "2015-06-30T23:56:05.333333333Z" ∧
    OrderDetail.decoder.run OrderDetail.withinMinute.toJson.render ≠ .ok .withinMinute := by
  have hinstant : OrderDetail.withinMinute.order.createdAt.Valid :=
    ⟨by decide, by decide, by decide⟩
  have hfits : OrderDetail.withinMinute.Fits :=
    ⟨⟨by decide, by decide, hinstant, nofun⟩, nofun, nofun, by decide⟩
  refine ⟨hfits, by decide +kernel, ?_⟩
  rw [hfits.run, ne_eq, Except.ok.injEq, OrderDetail.shown_eq_self_iff]
  decide

end Marketplace
