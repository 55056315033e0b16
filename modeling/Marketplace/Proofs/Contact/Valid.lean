import Marketplace.Proofs.Order.Change
import Marketplace.Proofs.Program.History
import Marketplace.Proofs.Text.Blank
import Marketplace.Service.Contacts
set_option autoImplicit false

/-!
# Stored contacts are valid

A new contact and a change of one are checked in different ways, and a change is trimmed again when
it is put into the contact.  Both checks let a field pass exactly if what is stored of it is allowed
(`AddressInput.checkDraft_ok_iff`, `AddressInput.checkPatch_ok_iff`), and so no contact is ever
stored that is not valid (`Pool.Reachable.contacts_valid`).
-/

namespace Marketplace

/-! ## Fields -/

/-- The text fields of a contact. -/
inductive AddressField
  | city
  | street
  | house
  | annex
  | building
  | apartment
  | phone
  deriving DecidableEq, Repr

namespace AddressField

/-- The name by which faults call the field. -/
def name : AddressField → String
  | city => "city"
  | street => "street"
  | house => "house"
  | annex => "structure"
  | building => "building"
  | apartment => "apartment"
  | phone => "phone"

/-- The most characters of the field. -/
def limit : AddressField → Nat
  | city => 50
  | street => 100
  | phone => 20
  | house | annex | building | apartment => 15

/-- A contact must have the field. -/
def isMandatory : AddressField → Bool
  | city | street | house | phone => true
  | annex | building | apartment => false

/-- The fields that a contact must have, in the order of checking. -/
def mandatory : List AddressField := [city, street, house, phone]

/-- The fields that a contact may leave empty, in the order of checking. -/
def voluntary : List AddressField := [annex, building, apartment]

theorem mem_mandatory {f : AddressField} : f ∈ mandatory ↔ f.isMandatory = true := by
  cases f <;> decide

theorem mem_voluntary {f : AddressField} : f ∈ voluntary ↔ f.isMandatory = false := by
  cases f <;> decide

/-- The text may be stored in the field: it is trimmed, not too long, and not empty if the field is
mandatory. -/
structure Allows (f : AddressField) (t : String) : Prop where
  trimmed : Text.Trimmed t
  present : f.isMandatory = true → t ≠ ""
  short : t.length ≤ f.limit

end AddressField

/-- What stands in a field. -/
def AddressOf.get {α : Type} (a : AddressOf α) : AddressField → α
  | .city => a.city
  | .street => a.street
  | .house => a.house
  | .annex => a.annex
  | .building => a.building
  | .apartment => a.apartment
  | .phone => a.phone

theorem AddressOf.mandatory_eq {α : Type} (a : AddressOf α) :
    a.mandatory = AddressField.mandatory.map fun f => (f.name, a.get f, f.limit) := rfl

theorem AddressOf.voluntary_eq {α : Type} (a : AddressOf α) :
    a.voluntary = AddressField.voluntary.map fun f => (f.name, a.get f, f.limit) := rfl

/-- All fields of the address may be stored. -/
def Address.Valid (a : Address) : Prop := ∀ f : AddressField, f.Allows (a.get f)

/-! ## Checks -/

namespace FieldFault

variable {field value : String} {max : Nat}

theorem check_ok_iff {faults : List FieldFault} : check faults = .ok () ↔ faults = [] := by
  cases faults <;> simp [check]

theorem limit_eq_nil_iff : limit field value max = [] ↔ value.length ≤ max := by
  unfold limit
  split <;> simp <;> omega

theorem require_eq_nil_iff {given : Option String} : require field given max = [] ↔
    ∃ v, given = some v ∧ Text.trim v ≠ "" ∧ (Text.trim v).length ≤ max := by
  cases given with
  | none => simp [require]
  | some v =>
    simp only [require, Option.bind_some, Option.some.injEq, exists_eq_left']
    cases hv : Text.nonBlank? v with
    | none => simp [Text.nonBlank?_eq_none_iff.mp hv]
    | some t =>
      obtain ⟨rfl, hsome⟩ := Text.nonBlank?_eq_some_iff.mp hv
      simp only [limit_eq_nil_iff, hsome, ne_eq, not_false_eq_true, true_and]

end FieldFault

namespace AddressInput

variable {a : AddressInput}

theorem get_complete (a : AddressInput) (f : AddressField) :
    a.complete.get f = ((a.get f).map Text.trim).getD "" := by
  cases f <;> rfl

theorem get_patch (a : AddressInput) (old : Address) (f : AddressField) :
    (a.patch old).get f = ((a.get f).map Text.trim).getD (old.get f) := by
  cases f <;> rfl

/-- What is given may be stored once it is trimmed. -/
def Fits (a : AddressInput) : Prop :=
  ∀ (f : AddressField) (v : String), a.get f = some v → f.Allows (Text.trim v)

/-- The trimmed text is allowed if it is short enough, and there where it must be. -/
theorem allows_trim_iff {f : AddressField} {v : String} : f.Allows (Text.trim v) ↔
    (f.isMandatory = true → Text.trim v ≠ "") ∧ (Text.trim v).length ≤ f.limit :=
  ⟨fun h => ⟨h.present, h.short⟩, fun h => ⟨Text.trimmed_trim v, h.1, h.2⟩⟩

/-- Fields that may be left empty have no faults if what is given of them is allowed. -/
theorem voluntaryFaults_eq_nil_iff : a.voluntaryFaults = [] ↔
    ∀ f : AddressField, f.isMandatory = false → ∀ v, a.get f = some v → f.Allows (Text.trim v) := by
  rw [voluntaryFaults, AddressOf.voluntary_eq, List.flatMap_map, List.flatMap_eq_nil_iff]
  refine forall_congr' fun f => ?_
  rw [AddressField.mem_voluntary]
  refine imp_congr_right fun hvoluntary => ?_
  cases a.get f with
  | none => simp
  | some v => simp [FieldFault.limit_eq_nil_iff, allows_trim_iff, hvoluntary]

theorem fits_iff : a.Fits ↔
    (∀ f : AddressField, f.isMandatory = true → ∀ v, a.get f = some v → f.Allows (Text.trim v)) ∧
      ∀ f : AddressField, f.isMandatory = false →
        ∀ v, a.get f = some v → f.Allows (Text.trim v) := by
  constructor
  · exact fun h => ⟨fun f _ => h f, fun f _ => h f⟩
  · intro h f
    cases hf : f.isMandatory with
    | true => exact h.1 f hf
    | false => exact h.2 f hf

/-- The check of a change lets exactly that pass which fits. -/
theorem checkPatch_ok_iff : a.checkPatch = .ok () ↔ a.Fits := by
  rw [checkPatch, FieldFault.check_ok_iff, patchFaults, List.append_eq_nil_iff,
    voluntaryFaults_eq_nil_iff, fits_iff, AddressOf.mandatory_eq, List.flatMap_map,
    List.flatMap_eq_nil_iff]
  refine and_congr_left fun _ => forall_congr' fun f => ?_
  rw [AddressField.mem_mandatory]
  refine imp_congr_right fun hmandatory => ?_
  cases a.get f with
  | none => simp
  | some v => simp [FieldFault.require_eq_nil_iff, allows_trim_iff, hmandatory]

/-- The check of a new contact lets exactly that pass which fits and leaves no mandatory field
out. -/
theorem checkDraft_ok_iff {address : Address} : a.checkDraft = .ok address ↔
    (a.Fits ∧ ∀ f : AddressField, f.isMandatory = true → (a.get f).isSome = true) ∧
      address = a.complete := by
  have hfaults : a.draftFaults = [] ↔
      a.Fits ∧ ∀ f : AddressField, f.isMandatory = true → (a.get f).isSome = true := by
    rw [draftFaults, List.append_eq_nil_iff, voluntaryFaults_eq_nil_iff, fits_iff,
      AddressOf.mandatory_eq, List.flatMap_map, List.flatMap_eq_nil_iff, and_right_comm]
    refine and_congr_left fun _ => ?_
    rw [← forall_and]
    refine forall_congr' fun f => ?_
    rw [AddressField.mem_mandatory, ← imp_and]
    refine imp_congr_right fun hmandatory => ?_
    cases a.get f with
    | none => simp [FieldFault.require_eq_nil_iff]
    | some v => simp [FieldFault.require_eq_nil_iff, allows_trim_iff, hmandatory]
  rw [checkDraft, ← hfaults, ← FieldFault.check_ok_iff]
  cases FieldFault.check a.draftFaults with
  | error f => simp [Except.map]
  | ok _ => simp [Except.map, eq_comm]

/-- A contact that is changed by what fits stays valid. -/
theorem Fits.valid_patch (h : a.Fits) {old : Address} (hold : old.Valid) : (a.patch old).Valid := by
  intro f
  rw [get_patch]
  cases hf : a.get f with
  | none => exact hold f
  | some v => exact h f v hf

/-- A new contact of what fits is valid, as long as no mandatory field is missing. -/
theorem Fits.valid_complete (h : a.Fits)
    (hall : ∀ f : AddressField, f.isMandatory = true → (a.get f).isSome = true) :
    a.complete.Valid := by
  intro f
  rw [get_complete]
  cases hf : a.get f with
  | none =>
    refine ⟨Text.trimmed_empty, fun hmandatory => ?_, Nat.zero_le _⟩
    have hsome := hall f hmandatory
    rw [hf] at hsome
    cases hsome
  | some v => exact h f v hf

end AddressInput

/-! ## Programs that keep contacts -/

/-- The call adds a contact or changes one. -/
def Call.writesContact : Call → Bool
  | .store (.contacts (.insert _ _)) => true
  | .store (.contacts (.update _ _ _)) => true
  | _ => false

/-- A contact that the call adds is valid, and a change that it makes of one fits. -/
def Call.KeepsValid : Call → Prop
  | .store (.contacts (.insert _ address)) => address.Valid
  | .store (.contacts (.update _ _ patch)) => patch.Fits
  | _ => True

theorem Call.keepsValid_of_not_writes {c : Call} (h : c.writesContact = false) : c.KeepsValid := by
  unfold KeepsValid
  split
  · cases h
  · cases h
  · trivial

/-- The program makes any calls, but contacts are added and changed by the services for it alone, as
often as it likes, for any users and with any drafts and patches. -/
inductive Program.ContactsByService {α : Type} : Program α → Prop
  | done (a : α) : ContactsByService (.done a)
  | call {c : Call} {next : c.Reply → Program α} (hc : c.writesContact = false)
      (hnext : ∀ r, ContactsByService (next r)) : ContactsByService (.call c next)
  | create (user : UserId) (draft : AddressInput) {next : Except Refusal Contact → Program α}
      (hnext : ∀ r, ContactsByService (next r)) :
    ContactsByService ((Contacts.create user draft).run.bind next)
  | update (user : UserId) (id : ContactId) (patch : AddressInput)
      {next : Except Refusal Contact → Program α} (hnext : ∀ r, ContactsByService (next r)) :
    ContactsByService ((Contacts.update user id patch).run.bind next)

namespace Contacts

/-- Only a valid contact is added. -/
theorem calls_create (user : UserId) (draft : AddressInput) :
    (create user draft).run.Calls Call.KeepsValid := by
  unfold create
  cases hcheck : draft.checkDraft with
  | error f => trivial
  | ok address =>
    obtain ⟨⟨hfits, hall⟩, rfl⟩ := AddressInput.checkDraft_ok_iff.mp hcheck
    exact ⟨hfits.valid_complete hall, fun r => trivial⟩

/-- Only a change that fits is made. -/
theorem calls_update (user : UserId) (id : ContactId) (patch : AddressInput) :
    (update user id patch).run.Calls Call.KeepsValid := by
  unfold update
  cases patch.isBlank with
  | true => trivial
  | false =>
    cases hcheck : patch.checkPatch with
    | error f => trivial
    | ok _ =>
      refine .exceptT_bind trivial fun _ => .exceptT_bind ?_ fun found => ?_
      · exact ⟨AddressInput.checkPatch_ok_iff.mp hcheck, fun r => trivial⟩
      · cases found <;> trivial

end Contacts

theorem Program.ContactsByService.calls {α : Type} {p : Program α} (hp : p.ContactsByService) :
    p.Calls Call.KeepsValid := by
  induction hp with
  | done a => trivial
  | call hc _ ih => exact ⟨Call.keepsValid_of_not_writes hc, ih⟩
  | create user draft _ ih => exact .bind (Contacts.calls_create user draft) ih
  | update user id patch _ ih => exact .bind (Contacts.calls_update user id patch) ih

/-! ## What calls do to contacts -/

/-- Every stored contact is valid. -/
def OrderBook.ContactsValid (b : OrderBook) : Prop := b.contacts.All fun _ x => x.address.Valid

namespace OrderBook.ContactsValid

variable {b : OrderBook}

theorem updateContact (h : b.ContactsValid) (user : UserId) (id : ContactId) {patch : AddressInput}
    (hpatch : patch.Fits) : (b.updateContact user id patch).2.ContactsValid := by
  unfold OrderBook.updateContact
  cases hx : b.contact? user id with
  | none => exact h
  | some x =>
    have hold := h id x (Option.filter_eq_some_iff.mp hx).1
    exact Table.All.insert h (hpatch.valid_patch hold)

/-- What a call, up to its second half, makes of valid contacts are valid contacts. -/
theorem act {w w' : World} {c : Call} {r : c.Reply} {m : Option Remainder}
    (h : w.store.book.ContactsValid) (hc : c.KeepsValid) (hact : w.act c = some (r, w', m)) :
    w'.store.book.ContactsValid := by
  by_cases hupdate : ∃ user id patch, c = .store (.contacts (.update user id patch))
  · obtain ⟨user, id, patch, rfl⟩ := hupdate
    cases hact
    exact h.updateContact user id hc
  · have hchange := OrderBook.Change.of_act hact
    generalize w'.store.book = b at hchange ⊢
    cases hchange with
    | insertItem hi =>
      obtain ⟨-, -, -, -, rfl⟩ := insertItem_ok hi
      exact h
    | insertContact => exact Table.All.insert h hc
    | updateContact hx => exact absurd ⟨_, _, _, rfl⟩ hupdate
    | dropContacts => exact Table.All.filter h _
    | _ => exact h

theorem finish {w : World} (h : w.store.book.ContactsValid) (m : Remainder) :
    (m.finish w).store.book.ContactsValid := by
  cases m <;> exact h

theorem release {w : World} (h : w.store.book.ContactsValid) (a : Activity) :
    (a.release w).store.book.ContactsValid := by
  unfold Activity.release
  cases a.drafting <;> exact h

end OrderBook.ContactsValid

/-- Whatever such programs have done, every stored contact is valid. -/
theorem Pool.Past.contactsValid {P : Pool} {log : List Event}
    (h : P.Past Program.ContactsByService log) : P.world.store.book.ContactsValid := by
  induction h with
  | start clock retention => exact Table.All.empty
  | begin _ _ ih => exact ih
  | environment _ _ _ ih => exact ih
  | deed h ha hd ih =>
    cases hd with
    | call hprogram _ _ hact =>
      have hcalls := h.calls (fun p hp => hp.calls) ha
      rw [hprogram] at hcalls
      exact ih.act hcalls.1 hact
    | finish _ => exact ih.finish _
    | drop _ => exact ih.release _

/-! ## Updates -/

/-- The user's contact has been changed, and nothing else: fields that were given have their trimmed
values, and the others are as they were. -/
structure World.Updated (w : World) (user : UserId) (id : ContactId) (patch : AddressInput)
    (x : Contact) (w' : World) : Prop where
  found : ∃ old, w.store.book.contacts.get? id = some old ∧ old.user = user ∧ x.id = old.id ∧
    x.user = old.user ∧
      ∀ f : AddressField, x.address.get f = ((patch.get f).map Text.trim).getD (old.address.get f)
  world : w' = { w with store := { w.store with book := { w.store.book with
    contacts := w.store.book.contacts.insert id x } } }

namespace Contacts

/-- An update comes to its end: the contact has changed, or else nothing has, because nothing is
given, something does not fit, or the user has no such contact. -/
theorem exists_run_update (w : World) (user : UserId) (id : ContactId) (patch : AddressInput) :
    ∃ r w', (update user id patch).run.run World.handle w = some (r, w') ∧
      ((∃ f, r = .error f ∧ w' = w ∧
          (patch.isBlank = true ∨ ¬patch.Fits ∨ w.store.book.contact? user id = none)) ∨
        ∃ x, r = .ok x ∧ patch.Fits ∧ w.Updated user id patch x w') := by
  unfold update
  cases hblank : patch.isBlank with
  | true => exact ⟨_, _, rfl, Or.inl ⟨_, rfl, rfl, Or.inl rfl⟩⟩
  | false =>
    cases hcheck : patch.checkPatch with
    | error f =>
      refine ⟨_, _, rfl, Or.inl ⟨f, rfl, rfl, Or.inr (Or.inl fun hfits => ?_)⟩⟩
      rw [AddressInput.checkPatch_ok_iff.mpr hfits] at hcheck
      cases hcheck
    | ok _ =>
      have hcall : (Service.contacts (.update user id patch)).run.run World.handle w =
          some (.ok (w.store.book.updateContact user id patch).1, { w with store := { w.store with
            book := (w.store.book.updateContact user id patch).2 } }) := rfl
      show ∃ r w', (Service.contacts (.update user id patch) >>= fun found =>
        Service.orRefuse _ found).run.run World.handle w = some (r, w') ∧ _
      rw [Program.run_bind_of_ok hcall]
      unfold OrderBook.updateContact
      cases hx : w.store.book.contact? user id with
      | none => exact ⟨_, _, rfl, Or.inl ⟨_, rfl, rfl, Or.inr (Or.inr rfl)⟩⟩
      | some old =>
        obtain ⟨hold, huser⟩ := Option.filter_eq_some_iff.mp hx
        refine ⟨_, _, rfl, Or.inr ⟨_, rfl, AddressInput.checkPatch_ok_iff.mp hcheck, ?_, rfl⟩⟩
        exact ⟨old, hold, beq_iff_eq.mp huser, rfl, rfl, patch.get_patch old.address⟩

end Contacts

/-- Whatever contacts are created, changed and deleted, of any users and by any drafts and patches,
among whatever else happens: every stored contact is valid.  An update of one always comes to its
end.  It is rejected and changes nothing if no field is given, if a field does not fit, or if the
contact is not the user's; else it has changed the contact as it was asked to, and nothing else. -/
theorem Pool.Reachable.contacts_valid {P : Pool} (h : P.Reachable Program.ContactsByService) :
    (∀ id x, P.world.store.book.contacts.get? id = some x → x.address.Valid) ∧
      ∀ user id patch, ∃ r w', (Contacts.update user id patch).run.run World.handle P.world =
          some (r, w') ∧
        ((∃ f, r = .error f ∧ w' = P.world ∧ (patch.isBlank = true ∨ ¬patch.Fits ∨
            P.world.store.book.contact? user id = none)) ∨
          ∃ x, r = .ok x ∧ x.address.Valid ∧ P.world.Updated user id patch x w') := by
  obtain ⟨log, hlog⟩ := h.exists_past
  have hvalid := hlog.contactsValid
  refine ⟨hvalid, fun user id patch => ?_⟩
  obtain ⟨r, w', hrun, hrejected | ⟨x, hr, hfits, hupdated⟩⟩ :=
    Contacts.exists_run_update P.world user id patch
  · exact ⟨r, w', hrun, Or.inl hrejected⟩
  · refine ⟨r, w', hrun, Or.inr ⟨x, hr, ?_, hupdated⟩⟩
    obtain ⟨old, hold, -, -, -, hfields⟩ := hupdated.found
    intro f
    rw [hfields, ← patch.get_patch old.address]
    exact hfits.valid_patch (hvalid id old hold) f

/-- A buyer keeps a contact. -/
def keptContact : List (Program Unit) :=
  [(Contacts.create ⟨7⟩ ⟨" Moscow", "Arbat", "1", none, none, none, "+7 495 000"⟩).run.bind
    fun _ => .done ()]

/-- The buyer moves to another street, which is given with blanks around it. -/
theorem Pool.Reachable.contacts_valid_in_keptContact : ∃ (P : Pool) (x y : Contact) (w : World),
    P.Reachable Program.ContactsByService ∧
      P.world.store.book.contacts.get? ⟨1⟩ = some x ∧ x.address.Valid ∧
        x = ⟨⟨1⟩, ⟨7⟩, ⟨"Moscow", "Arbat", "1", "", "", "", "+7 495 000"⟩⟩ ∧
          (Contacts.update ⟨7⟩ ⟨1⟩ ⟨none, "\tTverskaya ", none, none, none, none, none⟩).run.run
            World.handle P.world = some (.ok y, w) ∧ y.address.Valid ∧
              y = { x with address.street := "Tverskaya" } := by
  have hplay : (Pool.play [0] ⟨.start ⟨0, 0⟩ 3, keptContact.map .start⟩).any (fun P =>
      P.world.store.book.contacts.get? ⟨1⟩ ==
        some ⟨⟨1⟩, ⟨7⟩, ⟨"Moscow", "Arbat", "1", "", "", "", "+7 495 000"⟩⟩ &&
          ((Contacts.update ⟨7⟩ ⟨1⟩ ⟨none, "\tTverskaya ", none, none, none, none, none⟩).run.run
            World.handle P.world).any fun r => r.1.toOption.any fun y => y ==
              ⟨⟨1⟩, ⟨7⟩, ⟨"Moscow", "Tverskaya", "1", "", "", "", "+7 495 000"⟩⟩) = true := by
    decide +kernel
  obtain ⟨P, hP, hfacts⟩ := (Option.any_eq_true _ _).mp hplay
  obtain ⟨hstored, hmoved⟩ := Bool.and_eq_true_iff.mp hfacts
  obtain ⟨y, w, hrun, hy⟩ := Program.exists_of_any_ok hmoved
  have hbegin : Pool.Reachable Program.ContactsByService
      ⟨.start ⟨0, 0⟩ 3, keptContact.map .start⟩ := by
    refine .begin ⟨0, 0⟩ 3 fun p hp => ?_
    obtain rfl := List.mem_singleton.mp hp
    exact .create _ _ fun _ => .done ()
  have hreach := hbegin.play hP
  obtain ⟨hvalid, hupdate⟩ := hreach.contacts_valid
  obtain ⟨r, w', hrun', hcases⟩ :=
    hupdate ⟨7⟩ ⟨1⟩ ⟨none, "\tTverskaya ", none, none, none, none, none⟩
  cases hrun.symm.trans hrun'
  rcases hcases with ⟨f, hf, -⟩ | ⟨y', hy', hmoved, -⟩
  · cases hf
  · cases hy'
    exact ⟨P, _, y, w, hreach, eq_of_beq hstored, hvalid _ _ (eq_of_beq hstored), rfl, hrun, hmoved,
      eq_of_beq hy⟩

end Marketplace
