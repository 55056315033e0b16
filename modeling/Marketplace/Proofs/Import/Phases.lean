import Marketplace.Proofs.Catalog.Offer
import Marketplace.Proofs.Import.Draft
set_option autoImplicit false

/-!
# The parts of an import, one by one

What each part of an import has done to the draft when it has gone well: the shop is found or added,
categories are checked, added and linked, and goods become listings.
-/

namespace Marketplace

namespace Importer

variable {α β : Type} {d d' e : Draft}

/-- On the draft, the importer answers so and leaves that.  Only imports that go well are looked at
here; the others leave the published catalog as it is. -/
def Does (x : Importer α) (d : Draft) (a : α) (e : Draft) : Prop :=
  x.run.run Draft.handle d = some (.ok a, e)

/-- A part that goes well is one part and then the other, so that an import can be taken apart from
its end. -/
theorem does_bind_iff {x : Importer α} {f : α → Importer β} {b : β} :
    (x >>= f).Does d b e ↔ ∃ a d', x.Does d a d' ∧ (f a).Does d' b e :=
  Program.run_bind_ok_iff

theorem does_pure_iff {a b : α} : (pure a : Importer α).Does d b e ↔ b = a ∧ e = d := by
  constructor
  · intro h
    cases h
    exact ⟨rfl, rfl⟩
  · rintro ⟨rfl, rfl⟩
    rfl

theorem not_does_throw {f : ImportFault} {a : α} : ¬(throw f : Importer α).Does d a e := by
  intro h
  cases h

/-- A call goes well if the draft takes it.  What the call does is then known from what updates of
drafts do, with no more to say about importers. -/
theorem onDraft_of_does {f : StorageFault → ImportFault} {c : DraftCall} {a : c.Result}
    (h : (draftOr f c).Does d a e) : c.onDraft d = .ok (a, e) := by
  simp only [Does, draftOr, ExceptT.run_mk, Program.ask, Program.bind, Program.run,
    Draft.handle] at h
  split at h
  · cases h
  · rename_i r t hr
    split at hr
    · rename_i hc
      cases hr
      cases h
      exact hc
    · cases hr
      cases h

/-- Whatever an importer does keeps a coherent draft coherent and takes nothing back.  It is a run
of calls of the draft, and every single one does. -/
theorem Does.evolves {x : Importer α} {a : α} (h : x.Does d a e) (hd : d.Coherent) :
    e.Coherent ∧ d.Evolves e := by
  refine Program.run_draft_invariant (I := fun u => u.Coherent ∧ d.Evolves u) ?_ ⟨hd, .refl d⟩ h
  rintro u v c b ⟨hu, hevolves⟩ hc
  obtain ⟨hv, hstep⟩ := DraftCall.onDraft_ok hu hc
  exact ⟨hv, hevolves.trans hstep⟩

/-! ## The shop -/

/-- The shop of the name is the user's, or there is none yet and the user has no other one.  Nothing
else goes well: the shop of somebody else is refused, and so is a second shop of one user. -/
theorem resolveShop_does {name : String} {user : UserId} {shop : Shop} {created : Bool}
    (h : (resolveShop name user).Does d (shop, created) e) :
    (created = false ∧ e = d ∧ d.catalog.shopNamed? name = some shop ∧ shop.owner = user) ∨
      (created = true ∧ d.catalog.shopNamed? name = none ∧ d.catalog.shopOf? user = none ∧
        shop = d.newShop name user ∧ e = d.addShop shop ∧
        d.catalog.shopNames.get? name = none ∧ d.catalog.shopOwners.get? user = none) := by
  obtain ⟨named, d₁, hnamed, h⟩ := does_bind_iff.mp h
  have hstep := onDraft_of_does hnamed
  cases hstep
  cases hshop : d.catalog.shopNamed? name with
  | some old =>
    rw [hshop] at h
    dsimp only at h
    split at h
    · rename_i howner
      obtain ⟨heq, rfl⟩ := does_pure_iff.mp h
      cases heq
      exact Or.inl ⟨rfl, rfl, rfl, howner⟩
    · exact absurd h not_does_throw
  | none =>
    rw [hshop] at h
    obtain ⟨owned, d₁, howned, h⟩ := does_bind_iff.mp h
    have hstep := onDraft_of_does howned
    cases hstep
    cases howner : d.catalog.shopOf? user with
    | some old =>
      rw [howner] at h
      exact absurd h not_does_throw
    | none =>
      rw [howner] at h
      obtain ⟨new, d₁, hnew, h⟩ := does_bind_iff.mp h
      obtain ⟨hname, hfree, rfl, rfl⟩ := Draft.createShop_ok (onDraft_of_does hnew)
      obtain ⟨heq, rfl⟩ := does_pure_iff.mp h
      cases heq
      exact Or.inr ⟨rfl, rfl, rfl, rfl, rfl, hname, hfree⟩

/-- The shop is the user's shop of the name; it is the only one that may be new, and nothing else
is.  The fields speak of the tables of the catalog and no more of how the shop was found, so that
later parts need not know whether it is new. -/
structure Resolved (name : String) (user : UserId) (shop : Shop) (created : Bool) (d e : Draft) :
    Prop where
  there : e.catalog.shops.get? shop.id = some shop
  named : shop.name = name
  owned : shop.owner = user
  isNew : created = true ↔ d.catalog.shops.get? shop.id = none
  opened : created = true → shop.url = none ∧ shop.acceptingOrders = true
  shops : ∀ id, e.catalog.shops.contains id = true →
    d.catalog.shops.contains id = true ∨ id = shop.id
  categories : e.catalog.categories = d.catalog.categories
  listings : e.catalog.listings = d.catalog.listings
  values : ∀ id, e.catalog.valuesOf id = d.catalog.valuesOf id

/-- Both ways to find the shop give what is known of it. -/
theorem resolved_of_does (hd : d.Coherent) {name : String} {user : UserId} {shop : Shop}
    {created : Bool} (h : (resolveShop name user).Does d (shop, created) e) :
    Resolved name user shop created d e := by
  rcases resolveShop_does h with ⟨rfl, rfl, hshop, howner⟩ | ⟨rfl, -, -, rfl, rfl, -⟩
  · obtain ⟨hthere, hname⟩ := hd.shopNamed?_eq_some_iff.mp hshop
    exact
      { there := hthere
        named := hname
        owned := howner
        isNew := by simp [hthere]
        opened := by simp
        shops := fun _ h => Or.inl h
        categories := rfl
        listings := rfl
        values := fun _ => rfl }
  · exact
      { there := by simp [Draft.addShop]
        named := rfl
        owned := rfl
        isNew := ⟨fun _ => hd.shops_fresh, fun _ => rfl⟩
        opened := fun _ => ⟨rfl, rfl⟩
        shops := by
          intro id hid
          simp only [Draft.addShop, Table.contains_insert, Bool.or_eq_true,
            decide_eq_true_eq] at hid
          exact hid.symm.imp_right Eq.symm
        categories := rfl
        listings := rfl
        values := fun _ => rfl }

/-! ## Categories -/

/-- Goods may be in categories that the list does not declare, if the catalog has them.  Nothing is
changed by asking. -/
theorem requireCategories_does {cs : List CategoryId} (h : (requireCategories cs).Does d () e) :
    e = d ∧ ∀ c ∈ cs, d.catalog.categories.contains c = true := by
  induction cs generalizing d with
  | nil => exact ⟨(does_pure_iff.mp h).2, by simp⟩
  | cons c cs ih =>
    obtain ⟨known, d₁, hknown, h⟩ := does_bind_iff.mp h
    have hstep := onDraft_of_does hknown
    cases hstep
    split at h
    · rename_i hc
      obtain ⟨rfl, hcs⟩ := ih h
      exact ⟨rfl, by simpa using ⟨hc, hcs⟩⟩
    · exact absurd h not_does_throw

/-- The second table of categories comes from the first one by linking the shop to those named, some
of which may be new.  Names are kept, no other shop is linked or loses its link, and no other
category is added. -/
structure Linked (shop : ShopId) (ids : List CategoryId) (t t' : Table CategoryId CategoryRow) :
    Prop where
  names : ∀ id row, t.get? id = some row → ∃ row', t'.get? id = some row' ∧ row'.name = row.name
  links : ∀ id other, (∃ row, t'.get? id = some row ∧ other ∈ row.shops) ↔
    (∃ row, t.get? id = some row ∧ other ∈ row.shops) ∨ (other = shop ∧ id ∈ ids)
  added : ∀ id, t'.contains id = true → t.contains id = true ∨ id ∈ ids

namespace Linked

variable {shop : ShopId} {ids ids' : List CategoryId} {t t' t'' : Table CategoryId CategoryRow}

theorem refl (shop : ShopId) (t : Table CategoryId CategoryRow) : Linked shop [] t t where
  names := fun _ row h => ⟨row, h, rfl⟩
  links := by simp
  added := fun _ h => Or.inl h

/-- One linking after the other links the categories of both. -/
theorem trans (h : Linked shop ids t t') (h' : Linked shop ids' t' t'') :
    Linked shop (ids ++ ids') t t'' where
  names := by
    intro id row hrow
    obtain ⟨row', hrow', hname⟩ := h.names id row hrow
    obtain ⟨row'', hrow'', hname'⟩ := h'.names id row' hrow'
    exact ⟨row'', hrow'', hname'.trans hname⟩
  links := by
    intro id other
    rw [h'.links, h.links, List.mem_append, and_or_left, or_assoc]
  added := by
    intro id hid
    rw [List.mem_append]
    rcases h'.added id hid with hid | hid
    · exact (h.added id hid).imp_right Or.inl
    · exact Or.inr (Or.inr hid)

/-- One category is linked, and it may be new.  It gets the name of the row that is there, if there
is one; a new one has no shop but this. -/
theorem single {id : CategoryId} (row : CategoryRow)
    (hold : ∀ old, t.get? id = some old → old = row) (hnew : t.get? id = none → row.shops = [])
    (ht' : ∀ other, t'.get? other =
      if id = other then some { row with shops := Id.insertSorted shop row.shops }
      else t.get? other) : Linked shop [id] t t' where
  names := by
    intro other old hother
    rw [ht']
    split
    · rename_i hid
      subst hid
      exact ⟨_, rfl, by rw [hold old hother]⟩
    · exact ⟨old, hother, rfl⟩
  links := by
    intro other link
    rw [ht', List.mem_singleton]
    split
    · rename_i hid
      subst hid
      simp only [Option.some.injEq, exists_eq_left', Id.mem_insertSorted, and_true]
      rw [or_comm]
      refine or_congr_left ?_
      cases hrow : t.get? id with
      | none => simp [hnew hrow]
      | some old => simp [hold old hrow]
    · rename_i hid
      simp [Ne.symm hid]
  added := by
    intro other hother
    rw [List.mem_singleton]
    by_cases hid : id = other
    · exact Or.inr hid.symm
    · rw [Table.contains, ht', if_neg hid] at hother
      exact Or.inl hother

/-- A category that is there is linked. -/
theorem link {id : CategoryId} {row : CategoryRow} (hrow : t.get? id = some row) :
    Linked shop [id] t (t.insert id { row with shops := Id.insertSorted shop row.shops }) := by
  refine single row ?_ ?_ fun _ => Table.get?_insert _ _ _ _
  · intro old hold
    rw [hrow] at hold
    exact (Option.some.inj hold).symm
  · intro hnone
    rw [hrow] at hnone
    cases hnone

/-- A category is added and linked. -/
theorem declare {id : CategoryId} (hnew : t.get? id = none) (name : String) :
    Linked shop [id] t ((t.insert id ⟨name, []⟩).insert id ⟨name, [shop]⟩) := by
  refine single ⟨name, []⟩ ?_ (fun _ => rfl) ?_
  · intro old hold
    rw [hnew] at hold
    cases hold
  · intro other
    simp only [Table.get?_insert]
    split <;> rfl

end Linked

/-- Categories of goods are linked one after the other; the induction is on their list. -/
theorem linkCategories_does {shop : ShopId} {cs : List CategoryId}
    (h : (linkCategories shop cs).Does d () e) :
    ∃ t, e = { d with catalog := { d.catalog with categories := t } } ∧
      Linked shop cs d.catalog.categories t := by
  induction cs generalizing d with
  | nil => exact ⟨d.catalog.categories, (does_pure_iff.mp h).2, .refl _ _⟩
  | cons c cs ih =>
    obtain ⟨⟨⟩, d₁, hlink, h⟩ := does_bind_iff.mp h
    obtain ⟨-, row, hrow, rfl⟩ := Draft.linkCategory_ok (onDraft_of_does hlink)
    obtain ⟨t, rfl, ht⟩ := ih h
    exact ⟨t, rfl, .trans (.link hrow) ht⟩

/-- Declared categories are added where there are none, and linked in any case; the induction is on
their list. -/
theorem declareCategories_does {shop : ShopId} {cs : List DeclaredCategory}
    (h : (declareCategories shop cs).Does d () e) :
    ∃ t, e = { d with catalog := { d.catalog with categories := t } } ∧
      Linked shop (cs.map DeclaredCategory.id) d.catalog.categories t := by
  induction cs generalizing d with
  | nil => exact ⟨d.catalog.categories, (does_pure_iff.mp h).2, .refl _ _⟩
  | cons c cs ih =>
    obtain ⟨⟨⟩, d₁, hensure, h⟩ := does_bind_iff.mp h
    obtain ⟨⟨⟩, d₂, hlink, h⟩ := does_bind_iff.mp h
    obtain ⟨-, row, hrow, rfl⟩ := Draft.linkCategory_ok (onDraft_of_does hlink)
    obtain ⟨t, rfl, ht⟩ := ih h
    rcases Draft.ensureCategory_ok (onDraft_of_does hensure) with ⟨hthere, rfl⟩ | ⟨hnew, rfl⟩
    · exact ⟨t, rfl, .trans (.link hrow) ht⟩
    · have hempty : row = ⟨c.name, []⟩ := by
        simpa [Draft.setCategory] using hrow.symm
      subst hempty
      exact ⟨t, rfl, .trans (.declare hnew c.name) ht⟩

end Importer

end Marketplace
