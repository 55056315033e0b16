import Marketplace.Proofs.Import.Effect
import Marketplace.Proofs.PriceList.Accepted
set_option autoImplicit false

/-!
# Imports that the storage does not refuse

Each part of an import in the cases in which its fate is known before it begins.  `Importer.Smooth`
says how the part ends and that the storage takes every call that it makes on its way: every row
that is added refers to rows that are there, and none that may be there only once is added twice.
-/

namespace Marketplace

/-- The storage takes the call: it answers without a fault. -/
def Call.Taken : (c : Call) → c.Reply → Prop
  | .store _, r => ∃ a, r = .ok a
  | _, _ => True

namespace Program

variable {α β σ : Type} {h : Handler σ}

/-- On the program's way from the state, the storage takes every call.  This is more than that the
program ends well: it does not even run into a refusal that it would put up with. -/
def Unrefused (h : Handler σ) : Program α → σ → Prop
  | done _, _ => True
  | call c next, s => ∀ r t, h s c = some (r, t) → c.Taken r ∧ (next r).Unrefused h t

/-- The way of the first part and then that of the second one. -/
theorem Unrefused.bind {p : Program α} {f : α → Program β} {s : σ} (hp : p.Unrefused h s)
    (hf : ∀ a t, p.run h s = some (a, t) → (f a).Unrefused h t) : (p.bind f).Unrefused h s := by
  induction p generalizing s with
  | done a => exact hf a s rfl
  | call c next ih =>
    intro r t hr
    obtain ⟨htaken, hrest⟩ := hp r t hr
    refine ⟨htaken, ih r hrest fun a u ha => hf a u ?_⟩
    exact run_call_eq_some_iff.mpr ⟨r, t, hr, ha⟩

/-- What the storage takes of a draft's program when there is nothing but the draft, it takes in a
world. -/
theorem Unrefused.withDraft {p : Program α} (hp : p.Calls Call.IsEdit) {d : Draft}
    (hd : p.Unrefused Draft.handle d) (w : World) : p.Unrefused World.handle (w.withDraft d) := by
  induction p generalizing d with
  | done a => trivial
  | call c next ih =>
    intro r t hr
    rw [World.handle_withDraft w d hp.1, Option.map_eq_some_iff] at hr
    obtain ⟨⟨r', e⟩, hr', heq⟩ := hr
    cases heq
    obtain ⟨htaken, hrest⟩ := hd r' e hr'
    exact ⟨htaken, ih r' (hp.2 r') hrest⟩

end Program

namespace Importer

variable {α β : Type} {d d' e : Draft}

/-- On the draft, the importer ends so and leaves that, and no call is refused on its way.  It may
end with a fault of its own, one that it finds by asking and not by being refused. -/
structure Smooth (x : Importer α) (d : Draft) (r : Except ImportFault α) (e : Draft) : Prop where
  run : x.run.run Draft.handle d = some (r, e)
  unrefused : x.run.Unrefused Draft.handle d

theorem Smooth.does {x : Importer α} {a : α} (h : x.Smooth d (.ok a) e) : x.Does d a e := h.run

theorem smooth_pure (a : α) (d : Draft) : (pure a : Importer α).Smooth d (.ok a) d :=
  ⟨rfl, trivial⟩

theorem smooth_throw (f : ImportFault) (d : Draft) :
    (throw f : Importer α).Smooth d (.error f) d :=
  ⟨rfl, trivial⟩

/-- After an answer the importer goes on. -/
theorem Smooth.bind {x : Importer α} {a : α} {k : α → Importer β} {r : Except ImportFault β}
    (h : x.Smooth d (.ok a) d') (hk : (k a).Smooth d' r e) : (x >>= k).Smooth d r e where
  run := (Program.run_bind_of_ok h.run).trans hk.run
  unrefused := by
    refine h.unrefused.bind fun b t hb => ?_
    rw [h.run] at hb
    cases hb
    exact hk.unrefused

/-- After a failure it does not, so the fault of a part is that of the whole. -/
theorem Smooth.bind_error {x : Importer α} {f : ImportFault} (h : x.Smooth d (.error f) e)
    (k : α → Importer β) : (x >>= k).Smooth d (.error f) e where
  run := Program.run_bind_of_error h.run
  unrefused := by
    refine h.unrefused.bind fun b t hb => ?_
    rw [h.run] at hb
    cases hb
    trivial

/-- A call goes well that the draft takes. -/
theorem smooth_call {f : StorageFault → ImportFault} (c : DraftCall) {a : c.Result}
    (h : c.onDraft d = .ok (a, e)) : (draftOr f c).Smooth d (.ok a) e where
  run := by
    simp only [draftOr, ExceptT.run_mk, Program.ask, Program.bind, Program.run, Draft.handle, h]
    rfl
  unrefused := by
    intro r t hr
    simp only [Draft.handle, h, Option.some.injEq, Prod.mk.injEq] at hr
    obtain ⟨rfl, rfl⟩ := hr
    exact ⟨⟨a, rfl⟩, trivial⟩

/-! ## The shop

The four cases are those of the two questions that are asked, whose the name is and whether the user
has a shop.  Only the last one adds anything.
-/

section Shop

variable {name : String} {user : UserId} {s : Shop}

theorem smooth_shopByName (name : String) (d : Draft) :
    (draft (.shopByName name)).Smooth d (.ok (d.catalog.shopNamed? name)) d := smooth_call _ rfl

theorem smooth_shopByOwner (user : UserId) (d : Draft) :
    (draft (.shopByOwner user)).Smooth d (.ok (d.catalog.shopOf? user)) d := smooth_call _ rfl

/-- Another account's shop of the name is told. -/
theorem resolveShop_foreign (hshop : d.catalog.shopNamed? name = some s)
    (howner : s.owner ≠ user) :
    (resolveShop name user).Smooth d (.error (foreignShop s.name)) d := by
  refine (smooth_shopByName name d).bind ?_
  rw [hshop]
  simp only [if_neg howner]
  exact smooth_throw _ d

/-- The user's shop of the name is found. -/
theorem resolveShop_own (hshop : d.catalog.shopNamed? name = some s)
    (howner : s.owner = user) : (resolveShop name user).Smooth d (.ok (s, false)) d := by
  refine (smooth_shopByName name d).bind ?_
  rw [hshop]
  simp only [if_pos howner]
  exact smooth_pure _ d

/-- The user's shop of another name is told. -/
theorem resolveShop_second (hshop : d.catalog.shopNamed? name = none)
    (howned : d.catalog.shopOf? user = some s) :
    (resolveShop name user).Smooth d
      (.error (.ownershipConflict s!"account {user} already owns shop '{s.name}'")) d := by
  refine (smooth_shopByName name d).bind ?_
  rw [hshop]
  refine (smooth_shopByOwner user d).bind ?_
  rw [howned]
  exact smooth_throw _ d

/-- A shop is added where neither its name nor its owner has one. -/
theorem resolveShop_new (hshop : d.catalog.shopNames.get? name = none)
    (howner : d.catalog.shopOwners.get? user = none) :
    (resolveShop name user).Smooth d (.ok (d.newShop name user, true))
      (d.addShop (d.newShop name user)) := by
  refine (smooth_shopByName name d).bind ?_
  rw [Catalog.shopNamed?, hshop]
  refine (smooth_shopByOwner user d).bind ?_
  rw [Catalog.shopOf?, howner]
  exact (smooth_call (.createShop name user) (Draft.createShop_of_new hshop howner)).bind
    (smooth_pure _ _)

end Shop

/-! ## Categories -/

/-- Every category is there. -/
def AllKnown (cs : List CategoryId) (c : Catalog) : Prop :=
  ∀ id ∈ cs, c.categories.contains id = true

theorem smooth_categoryExists (c : CategoryId) (d : Draft) :
    (draft (.categoryExists c)).Smooth d (.ok (d.catalog.categories.contains c)) d :=
  smooth_call _ rfl

theorem requireCategories_known {cs : List CategoryId} (h : AllKnown cs d.catalog) :
    (requireCategories cs).Smooth d (.ok ()) d := by
  induction cs with
  | nil => exact smooth_pure _ d
  | cons c cs ih =>
    obtain ⟨hc, hcs⟩ := List.forall_mem_cons.mp h
    refine (smooth_categoryExists c d).bind ?_
    rw [if_pos hc]
    exact ih hcs

/-- The first category that is not there is told, whatever the others are. -/
theorem requireCategories_unknown {cs : List CategoryId} (h : ¬AllKnown cs d.catalog) :
    ∃ c : CategoryId, (requireCategories cs).Smooth d (.error (.invalidArguments
      s!"category {c} is neither declared in the price list nor known")) d := by
  induction cs with
  | nil => exact absurd (fun _ hc => absurd hc List.not_mem_nil) h
  | cons c cs ih =>
    by_cases hc : d.catalog.categories.contains c = true
    · obtain ⟨c', htold⟩ := ih fun hcs => h (List.forall_mem_cons.mpr ⟨hc, hcs⟩)
      refine ⟨c', (smooth_categoryExists c d).bind ?_⟩
      rw [if_pos hc]
      exact htold
    · refine ⟨c, (smooth_categoryExists c d).bind ?_⟩
      rw [if_neg hc]
      exact smooth_throw _ d

/-- Categories that are there can be linked to a shop that is there.  Linking takes none away, so
that the others are there still. -/
theorem exists_linkCategories {shop : ShopId} {cs : List CategoryId}
    (hshop : d.catalog.shops.contains shop = true) (h : AllKnown cs d.catalog) :
    ∃ e, (linkCategories shop cs).Smooth d (.ok ()) e := by
  induction cs generalizing d with
  | nil => exact ⟨d, smooth_pure _ d⟩
  | cons c cs ih =>
    obtain ⟨hc, hcs⟩ := List.forall_mem_cons.mp h
    obtain ⟨d₁, hlink⟩ := Draft.exists_linkCategory hshop hc
    obtain ⟨-, row, -, rfl⟩ := Draft.linkCategory_ok hlink
    obtain ⟨e, hrest⟩ := ih (d := d.setCategory c _) hshop fun id hid => by
      rw [Draft.setCategory, Table.contains_insert, hcs id hid, Bool.or_true]
    exact ⟨e, (smooth_call (.linkCategory c shop) hlink).bind hrest⟩

/-- Categories can always be declared: those that are there already stay as they are. -/
theorem exists_declareCategories {shop : ShopId} (cs : List DeclaredCategory)
    (hshop : d.catalog.shops.contains shop = true) :
    ∃ e, (declareCategories shop cs).Smooth d (.ok ()) e := by
  induction cs generalizing d with
  | nil => exact ⟨d, smooth_pure _ d⟩
  | cons c cs ih =>
    obtain ⟨d₁, hensure⟩ := Draft.exists_ensureCategory c d
    obtain ⟨hshop₁, hthere⟩ : d₁.catalog.shops.contains shop = true ∧
        d₁.catalog.categories.contains c.id = true := by
      rcases Draft.ensureCategory_ok hensure with ⟨hthere, rfl⟩ | ⟨-, rfl⟩
      · exact ⟨hshop, hthere⟩
      · exact ⟨hshop, by simp [Draft.setCategory]⟩
    obtain ⟨d₂, hlink⟩ := Draft.exists_linkCategory hshop₁ hthere
    obtain ⟨-, row, -, rfl⟩ := Draft.linkCategory_ok hlink
    obtain ⟨e, hrest⟩ := ih (d := d₁.setCategory c.id _) hshop₁
    exact ⟨e, (smooth_call (.ensureCategory c) hensure).bind
      ((smooth_call (.linkCategory c.id shop) hlink).bind hrest)⟩

/-! ## Goods -/

/-- A listing can be given parameters of distinct names that it does not have yet.  The names are
what is distinct in a price list, and the storage compares identifiers, which a coherent draft has
one of for each name. -/
theorem exists_insertParameters (hd : d.Coherent) {listing : ListingId} {ps : List ParameterEntry}
    (hlisting : d.catalog.listings.contains listing = true)
    (hnames : ((d.catalog.valuesOf listing).map ParameterValue.name ++ ps.map Prod.fst).Nodup) :
    ∃ e, (insertParameters listing ps).Smooth d (.ok ()) e := by
  induction ps generalizing d with
  | nil => exact ⟨d, smooth_pure _ d⟩
  | cons p ps ih =>
    obtain ⟨parameter, d₁, hup⟩ := Draft.exists_upsertParameter p.1 d
    have hasked : (draft (.upsertParameter p.1)).Smooth d (.ok parameter) d₁ := smooth_call _ hup
    obtain ⟨hd₁, -⟩ := hasked.does.evolves hd
    obtain ⟨hsame, hvalues, q, hq, hname⟩ := Draft.upsertParameter_sameRows hd hup
    have hlisting₁ : d₁.catalog.listings.contains listing = true := by
      rw [hsame.listings]
      exact hlisting
    have hnew : d₁.catalog.listingParameters.get? (listing, parameter) = none := by
      refine Option.eq_none_iff_forall_ne_some.mpr fun value hvalue => ?_
      have hthere := List.mem_map_of_mem (f := ParameterValue.name)
        (Catalog.mem_valuesOf hvalue hq)
      rw [hvalues, hname] at hthere
      obtain ⟨-, -, hapart⟩ := List.nodup_append.mp hnames
      exact hapart p.1 hthere p.1 List.mem_cons_self rfl
    have hset := Draft.insertParameter_of_new hlisting₁ (Table.contains_of_get? hq) hnew p.2
    have hgiven : (draft (.insertParameter listing parameter p.2)).Smooth d₁ (.ok ()) _ :=
      smooth_call _ hset
    obtain ⟨hd₂, -⟩ := hgiven.does.evolves hd₁
    have hnames₂ : (((d₁.setValue listing parameter p.2).catalog.valuesOf listing).map
        ParameterValue.name ++ ps.map Prod.fst).Nodup := by
      rw [Draft.valuesOf_setValue hq hnew, hvalues, if_pos rfl, hname]
      simpa using hnames
    obtain ⟨e, hrest⟩ := ih hd₂ hlisting₁ hnames₂
    exact ⟨e, hasked.bind (hgiven.bind hrest)⟩

/-- A good can be added whose category and shop are there.  Its listing is new, so that it has no
parameters which could be in the way. -/
theorem exists_insertGood (hd : d.Coherent) {shop : ShopId} {g : Good}
    (hshop : d.catalog.shops.contains shop = true)
    (hcategory : d.catalog.categories.contains g.category = true) (hdistinct : g.Distinct)
    (hamounts : ∀ a ∈ g.amounts, 0 ≤ a.2) : ∃ e, (insertGood shop g).Smooth d (.ok ()) e := by
  obtain ⟨product, d₁, hup⟩ := Draft.exists_upsertProduct (Text.trim g.name) hcategory
  have hasked : (draft (.upsertProduct (Text.trim g.name) g.category)).Smooth d (.ok product) d₁ :=
    smooth_call _ hup
  obtain ⟨hd₁, -⟩ := hasked.does.evolves hd
  obtain ⟨hsame, -⟩ := Draft.upsertProduct_sameRows hup
  have hproduct := Table.contains_of_get? (Draft.upsertProduct_there hd hup)
  have hshop₁ : d₁.catalog.shops.contains shop = true := by
    rw [hsame.shops]
    exact hshop
  simp only [Good.amounts, List.forall_mem_cons] at hamounts
  obtain ⟨hprice, hpriceRrc, hquantity, -⟩ := hamounts
  let row : ListingData := ⟨product, shop, g.model, g.externalId, g.quantity, g.price, g.priceRrc⟩
  have hinsert : (draft (.insertListing row)).Smooth d₁ (.ok d₁.nextListing) (d₁.addListing row) :=
    smooth_call _ (Draft.insertListing_of_sound hproduct hshop₁ hprice hpriceRrc hquantity)
  obtain ⟨hd₂, -⟩ := hinsert.does.evolves hd₁
  have hlisting : (d₁.addListing row).catalog.listings.contains d₁.nextListing = true := by
    simp [Draft.addListing]
  -- The listing is new, so it has no parameters yet.
  have hnone : (d₁.addListing row).catalog.valuesOf d₁.nextListing = [] :=
    hd₁.valuesOf_eq_nil hd₁.listings_fresh
  have hnames : (((d₁.addListing row).catalog.valuesOf d₁.nextListing).map ParameterValue.name ++
      g.parameters.map Prod.fst).Nodup := by
    rw [hnone]
    exact hdistinct
  obtain ⟨e, hrest⟩ := exists_insertParameters hd₂ hlisting hnames
  exact ⟨e, hasked.bind (hinsert.bind hrest)⟩

theorem exists_insertGoods (hd : d.Coherent) {shop : ShopId} {gs : List Good}
    (hshop : d.catalog.shops.contains shop = true)
    (hcategories : ∀ g ∈ gs, d.catalog.categories.contains g.category = true)
    (hdistinct : ∀ g ∈ gs, g.Distinct) (hamounts : ∀ g ∈ gs, ∀ a ∈ g.amounts, 0 ≤ a.2) :
    ∃ e, (insertGoods shop gs).Smooth d (.ok ()) e := by
  induction gs generalizing d with
  | nil => exact ⟨d, smooth_pure _ d⟩
  | cons g gs ih =>
    obtain ⟨hcategory, hcategories⟩ := List.forall_mem_cons.mp hcategories
    obtain ⟨hnames, hdistinct⟩ := List.forall_mem_cons.mp hdistinct
    obtain ⟨hsigns, hamounts⟩ := List.forall_mem_cons.mp hamounts
    obtain ⟨d₁, hgood⟩ := exists_insertGood hd hshop hcategory hnames hsigns
    obtain ⟨hd₁, -⟩ := hgood.does.evolves hd
    have hadded := insertGood_does hd hgood.does
    obtain ⟨e, hrest⟩ := ih hd₁ (by rw [hadded.shops]; exact hshop)
      (by rw [hadded.categories]; exact hcategories) hdistinct hamounts
    exact ⟨e, hgood.bind hrest⟩

/-! ## All of it -/

variable {list : PriceList} {user : UserId}

/-- Once the shop has been found and no category is missing, the import goes well.  What the price
list is sound for is used here, and nothing else of it. -/
theorem exists_prepare (hd : d.Coherent) (hlist : list.Sound) {shop : Shop} {created : Bool}
    (hresolve : (resolveShop (Text.trim list.shop) user).Smooth d (.ok (shop, created)) d')
    (hknown : AllKnown list.undeclared d.catalog) :
    ∃ summary e, (prepare list user).Smooth d (.ok summary) e := by
  obtain ⟨hd', -⟩ := hresolve.does.evolves hd
  have hresolved := resolved_of_does hd hresolve.does
  have hshop := Table.contains_of_get? hresolved.there
  have hknown' : AllKnown list.undeclared d'.catalog := by
    unfold AllKnown
    rw [hresolved.categories]
    exact hknown
  obtain ⟨d₁, hdeclare⟩ := exists_declareCategories list.categories hshop
  obtain ⟨hd₁, hto₁⟩ := hdeclare.does.evolves hd'
  have hknown₁ : AllKnown list.undeclared d₁.catalog := by
    intro id hid
    obtain ⟨row, hrow⟩ := Table.contains_iff.mp (hknown' id hid)
    obtain ⟨links, hstill⟩ := hto₁.categories id row hrow
    exact Table.contains_of_get? hstill
  obtain ⟨t₁, rfl, hlinked₁⟩ := declareCategories_does hdeclare.does
  obtain ⟨d₂, hlink⟩ := exists_linkCategories (d := linkedDraft d' t₁) hshop hknown₁
  obtain ⟨hd₂, -⟩ := hlink.does.evolves hd₁
  obtain ⟨t₂, rfl, hlinked₂⟩ := linkCategories_does hlink.does
  have hdelete := smooth_call (f := .ofStorage) (d := linkedDraft d' t₂)
    (.deleteListings shop.id) rfl
  obtain ⟨hd₃, -⟩ := hdelete.does.evolves hd₂
  -- Every category of a good has just been linked to the shop, so it is there.
  have hcategories : ∀ g ∈ list.goods, t₂.contains g.category = true := by
    intro g hg
    have hmember : g.category ∈ list.categories.map DeclaredCategory.id ++ list.undeclared := by
      rw [List.mem_append, PriceList.mem_undeclared]
      by_cases hdeclared : list.Declares g.category
      · exact Or.inl hdeclared
      · exact Or.inr ⟨List.mem_map_of_mem hg, hdeclared⟩
    obtain ⟨row, hrow, -⟩ := ((hlinked₁.trans hlinked₂).links g.category shop.id).mpr
      (Or.inr ⟨rfl, hmember⟩)
    exact Table.contains_of_get? hrow
  obtain ⟨e, hgoods⟩ := exists_insertGoods hd₃ hshop hcategories hlist.parameters hlist.amounts
  refine ⟨⟨shop.id, created, list.categories.length, list.goods.length,
    list.goods.foldr (fun g n => g.parameters.length + n) 0⟩, e, hresolve.bind ?_⟩
  refine (requireCategories_known hknown').bind (hdeclare.bind (hlink.bind ?_))
  exact hdelete.bind (hgoods.bind (smooth_pure _ e))

end Importer

end Marketplace
