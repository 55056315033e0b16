import Marketplace.Proofs.Program.History
import Marketplace.Proofs.Storage.DraftCall
set_option autoImplicit false

/-!
# Writes of the catalog

A complete write of the catalog is a shop that has been opened or closed for orders or an import
that has been committed.  `Catalog.serial` makes writes one after the other.  From the events of a
pool `CatalogHistory` takes the writes that are complete, in the order in which they were completed,
and what the import under way has done.
-/

namespace Marketplace

/-! ## Writes -/

/-- What a call makes of a draft.  A call that fails leaves it as it is. -/
def DraftCall.edited (d : Draft) (c : DraftCall) : Draft :=
  match c.onDraft d with
  | .ok (_, e) => e
  | .error _ => d

theorem DraftCall.step_withDraft_eq (s : Store) (d : Draft) {c : DraftCall} (hc : c ≠ .commit) :
    c.step (s.withDraft d) = ((c.onDraft d).map Prod.fst, s.withDraft (c.edited d)) := by
  rw [step_withDraft s d hc, edited]
  cases c.onDraft d <;> rfl

/-- What an import has done so far. -/
structure ImportWork where
  /-- The last identifiers that had been given when it began. -/
  given : CatalogCounters
  calls : List DraftCall

/-- The draft that the work makes of a catalog. -/
def ImportWork.draft (i : ImportWork) (c : Catalog) : Draft :=
  i.calls.foldl DraftCall.edited ⟨c, i.given⟩

/-- A complete change of the catalog. -/
inductive CatalogWrite
  /-- A shop has been opened or closed for orders. -/
  | accepting (shop : ShopId) (accepts : Bool)
  /-- An import has been committed. -/
  | imported (work : ImportWork)

/-- Makes the change in a catalog that nobody else changes. -/
def CatalogWrite.apply (c : Catalog) : CatalogWrite → Catalog
  | accepting shop accepts =>
    { c with shops := c.shops.modify shop fun row => { row with acceptingOrders := accepts } }
  | imported work => (work.draft c).catalog

namespace Catalog

/-- The catalog after writes that are made one after the other, from the empty one on. -/
def serial (writes : List CatalogWrite) : Catalog := writes.foldl CatalogWrite.apply .empty

theorem serial_snoc (writes : List CatalogWrite) (w : CatalogWrite) :
    serial (writes ++ [w]) = w.apply (serial writes) :=
  List.foldl_append

/-- Every shop is open or closed as it has been set last. -/
def Flagged (writes : List CatalogWrite) : Prop :=
  ∀ before later shop accepts, writes = before ++ .accepting shop accepts :: later →
    (∀ b, .accepting shop b ∉ later) → (serial before).shops.contains shop = true →
      ((serial writes).shops.get? shop).map Shop.acceptingOrders = some accepts

theorem Flagged.nil : Flagged [] := by
  intro before later shop accepts h
  simp at h

/-- It is enough that the next write leaves the other shops alone. -/
theorem Flagged.snoc {writes : List CatalogWrite} (h : Flagged writes) {w : CatalogWrite}
    (hw : ∀ shop row, (∀ b, w ≠ .accepting shop b) → (serial writes).shops.get? shop = some row →
      (w.apply (serial writes)).shops.get? shop = some row) : Flagged (writes ++ [w]) := by
  intro before later shop accepts heq hlast hshop
  rw [serial_snoc]
  rcases List.eq_nil_or_concat later with rfl | ⟨later, x, rfl⟩
  · obtain ⟨rfl, hlist⟩ := List.append_inj' heq rfl
    cases hlist
    obtain ⟨row, hrow⟩ := Table.contains_iff.mp hshop
    simp [CatalogWrite.apply, Table.get?_modify, hrow]
  · rw [List.concat_eq_append] at heq hlast
    rw [← List.cons_append, ← List.append_assoc] at heq
    obtain ⟨hwrites, hlist⟩ := List.append_inj' heq rfl
    cases hlist
    have hflag := h before later shop accepts hwrites
      (fun b hb => hlast b (List.mem_append_left _ hb)) hshop
    obtain ⟨row, hrow, haccepts⟩ := Option.map_eq_some_iff.mp hflag
    have hother : ∀ b, w ≠ .accepting shop b := by
      rintro b rfl
      exact hlast b (by simp)
    rw [hw shop row hother hrow, Option.map_some, haccepts]

theorem Flagged.accepting {writes : List CatalogWrite} (h : Flagged writes) (shop : ShopId)
    (accepts : Bool) : Flagged (writes ++ [.accepting shop accepts]) := by
  refine h.snoc fun other row hother hrow => ?_
  have hne : other ≠ shop := by
    rintro rfl
    exact hother accepts rfl
  simp only [CatalogWrite.apply, Table.get?_modify, if_neg hne, hrow]

theorem Flagged.imported {writes : List CatalogWrite} (h : Flagged writes) {work : ImportWork}
    (hkeeps : (serial writes).shops.Keeps (work.draft (serial writes)).catalog.shops) :
    Flagged (writes ++ [.imported work]) :=
  h.snoc fun shop row _ hrow => hkeeps shop row hrow

end Catalog

/-! ## The writes among events -/

/-- What events have done to the catalog. -/
structure CatalogHistory where
  /-- The complete writes, the first one first. -/
  writes : List CatalogWrite
  /-- The last identifiers given by imports that are over. -/
  given : CatalogCounters
  /-- The import under way, with the place of who does it. -/
  underWay : Option (Nat × ImportWork)

namespace CatalogHistory

/-- Nothing has happened. -/
def start : CatalogHistory := ⟨[], .start, none⟩

/-- The catalog that the complete writes make. -/
def catalog (h : CatalogHistory) : Catalog := .serial h.writes

/-- The last identifiers that have been given. -/
def counters (h : CatalogHistory) : CatalogCounters :=
  match h.underWay with
  | none => h.given
  | some (_, work) => (work.draft h.catalog).counters

/-- The history once the import is over. -/
def close (h : CatalogHistory) : CatalogHistory := ⟨h.writes, h.counters, none⟩

/-- The history once the import has been committed. -/
def commit (h : CatalogHistory) (work : ImportWork) : CatalogHistory :=
  ⟨h.writes ++ [.imported work], h.counters, none⟩

/-- The history when the import has gone a call further. -/
def edit (h : CatalogHistory) (c : DraftCall) : CatalogHistory :=
  { h with underWay := h.underWay.map fun u => (u.1, { u.2 with calls := u.2.calls ++ [c] }) }

/-- The history with one more event. -/
def note (h : CatalogHistory) (e : Event) : CatalogHistory :=
  match e.deed with
  | .call (.store (.catalog .begin)) _ => { h with underWay := some (e.place, ⟨h.given, []⟩) }
  | .call (.store (.catalog (.setAccepting shop accepts))) _ =>
    { h with writes := h.writes ++ [.accepting shop accepts] }
  | .call (.store (.draft .commit)) _ =>
    match h.underWay with
    | none => h
    | some (_, work) => h.commit work
  | .call (.store (.draft c)) _ => h.edit c
  | .call .discard _ | .drop =>
    if h.underWay.any (·.1 == e.place) then h.close else h
  | _ => h

/-- The history of events. -/
def of (log : List Event) : CatalogHistory := log.foldl note start

theorem of_snoc (log : List Event) (e : Event) : of (log ++ [e]) = (of log).note e :=
  List.foldl_append

end CatalogHistory

/-- The call may change the published catalog or a draft. -/
def Call.changesCatalog : Call → Bool
  | .store (.catalog .begin) | .store (.catalog (.setAccepting _ _)) | .store (.draft _)
  | .discard => true
  | _ => false

namespace CatalogHistory

variable {h : CatalogHistory} {i : Nat} {work : ImportWork}

theorem note_of_not_changesCatalog {c : Call} (hc : c.changesCatalog = false) (r : c.Reply) :
    h.note ⟨i, .call c r⟩ = h := by
  cases c with
  | store c =>
    cases c with
    | catalog c => cases c <;> first | rfl | cases hc
    | draft c => cases hc
    | _ => rfl
  | discard => cases hc
  | _ => rfl

theorem note_edit {d : DraftCall} (hd : d ≠ .commit) (r : Call.Reply (.store (.draft d))) :
    h.note ⟨i, .call (.store (.draft d)) r⟩ = h.edit d := by
  cases d with
  | commit => exact absurd rfl hd
  | _ => rfl

theorem note_commit (hwork : h.underWay = some (i, work))
    (r : Call.Reply (.store (.draft .commit))) :
    h.note ⟨i, .call (.store (.draft .commit)) r⟩ = h.commit work := by
  simp only [note, hwork]

theorem note_discard (hwork : h.underWay = some (i, work)) (r : Call.Reply .discard) :
    h.note ⟨i, .call .discard r⟩ = h.close := by
  simp [note, hwork]

theorem note_drop (hwork : h.underWay = some (i, work)) : h.note ⟨i, .drop⟩ = h.close := by
  simp [note, hwork]

theorem note_drop_of_ne (hwork : ∀ work, h.underWay ≠ some (i, work)) : h.note ⟨i, .drop⟩ = h := by
  simp only [note, ite_eq_right_iff, Option.any_eq_true, beq_iff_eq]
  rintro ⟨⟨j, work⟩, hu, rfl⟩
  exact absurd hu (hwork work)

end CatalogHistory

end Marketplace
