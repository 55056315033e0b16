import Marketplace.Proofs.PriceList.Parameters
import Marketplace.Proofs.Wire.Order
set_option autoImplicit false

/-!
# Price lists as JSON

Parameters are read from a mapping, but what is written of them is an array.  So a price list is
read back from its JSON form only if it has no goods, and is refused otherwise.  In the form of
documents, which differs from it in the parameters alone, it is read back exactly if the parameters
of every good have names that are not blank and differ (`PriceList.run_render_iff`).
-/

namespace Marketplace

open Json (Value Decoder Fault)
open Json.Value
open Json.Decoder

/-! ## Parameters -/

namespace ParameterEntry

variable {ps : List ParameterEntry} {es : List (Yaml.Value × Yaml.Value)}

/-- No name is blank, and none stands twice. -/
structure WellNamed (ps : List ParameterEntry) : Prop where
  named : ∀ p ∈ ps, Text.isBlankText p.1 = false
  distinct : Distinct ps

/-- The form of documents: a mapping from names to values. -/
def toMapping (ps : List ParameterEntry) : Value := .object (ps.map fun p => (p.1, .text p.2))

/-- The entries of this mapping. -/
def textEntries (ps : List ParameterEntry) : List (Yaml.Value × Yaml.Value) :=
  ps.map fun p => (.text p.1, .text p.2)

theorem rendered_textEntries (ps : List ParameterEntry) : Rendered (textEntries ps) ps := by
  induction ps with
  | nil => exact .nil
  | cons p ps ih => exact .cons ⟨.text p.1, .text p.2⟩ ih

/-- Texts as keys collide only if they are the same. -/
theorem distinct_textEntries_iff :
    (textEntries ps).Pairwise (fun a b => ¬a.1.Collide b.1) ↔ Distinct ps := by
  have hcollide (s t : String) : (Yaml.Value.text s).Collide (.text t) ↔ s = t := by
    constructor
    · rintro ⟨_, ⟨⟩, ⟨⟩⟩
      rfl
    · rintro rfl
      exact ⟨s, .text s, .text s⟩
  rw [Distinct, List.Nodup, List.pairwise_map, textEntries, List.pairwise_map]
  simp only [hcollide, ne_eq]

theorem acceptable_textEntries_iff : Acceptable (textEntries ps) ↔ WellNamed ps := by
  constructor
  · rintro ⟨hnames, -, hdistinct⟩
    refine ⟨fun p hp => ?_, distinct_textEntries_iff.mp hdistinct⟩
    obtain ⟨_, ⟨⟩, hblank⟩ := List.forall_mem_map.mp hnames p hp
    exact hblank
  · rintro ⟨hnamed, hdistinct⟩
    refine ⟨?_, ?_, distinct_textEntries_iff.mpr hdistinct⟩
    · exact List.forall_mem_map.mpr fun p hp => ⟨p.1, .text p.1, hnamed p hp⟩
    · exact List.forall_mem_map.mpr fun p _ => trivial

/-- Texts make the parameters that they are. -/
theorem ofEntries_textEntries_iff : ofEntries (textEntries ps) = .ok ps ↔ WellNamed ps := by
  rw [ofEntries_eq_ok_iff, acceptable_textEntries_iff]
  exact and_iff_left (rendered_textEntries ps)

theorem ofMembers?_texts (ps : List ParameterEntry) :
    ofMembers? (ps.map fun p => (p.1, .text p.2)) = some (textEntries ps) := by
  induction ps with
  | nil => rfl
  | cons p ps ih => simp [ofMembers?, ofTree?, ih, textEntries]

theorem decodeMembers_memberRun {ms : List (String × Value)} (hms : ofMembers? ms = some es)
    {depth : Nat} (hdepth : membersDepth ms ≤ depth) {fuel : Nat} (hfuel : ms.length < fuel)
    (first : Bool) (seen : List ParameterEntry) (rest : List Json.Token) :
    decodeMembers depth fuel first seen (memberRun first ms ++ .closeObject :: rest) =
      ((extend seen es).mapError Objection.fault).map fun ps => (ps, rest) := by
  induction ms generalizing es fuel first seen with
  | nil =>
    obtain ⟨fuel, rfl⟩ := Nat.exists_eq_add_one.mpr hfuel
    cases hms
    cases first <;> rfl
  | cons m ms ih =>
    obtain ⟨fuel, rfl⟩ := Nat.exists_eq_add_one.mpr (Nat.zero_lt_of_lt hfuel)
    obtain ⟨hv, hdepth⟩ := Nat.max_le.mp hdepth
    obtain ⟨w, hw, hrest⟩ := Option.bind_eq_some_iff.mp hms
    obtain ⟨es, hes, rfl⟩ := Option.map_eq_some_iff.mp hrest
    have hread := (reads_tree m.2).filterMap hw depth hv
    rw [decodeMembers, nextMember_memberRun]
    simp only [afterColon, Except.bind, valueDecoder, hread, extend]
    cases make seen (.text m.1) w with
    | error o => rfl
    | ok p => exact ih hes hdepth (Nat.lt_of_succ_lt_succ hfuel) false (seen ++ [p])

/-- An object gives what its members make as entries. -/
theorem gives_object {ms : List (String × Value)} (hms : ofMembers? ms = some es) :
    decoder.Gives (.object ms) ((ofEntries es).mapError Objection.fault) := by
  intro depth hdepth rest
  rw [tokens_object, List.cons_append, List.append_assoc]
  cases depth with
  | zero => exact absurd hdepth (Nat.not_succ_le_zero _)
  | succ depth =>
    exact decodeMembers_memberRun hms (Nat.le_of_succ_le_succ hdepth)
      (length_lt_memberRun true ms (.closeObject :: rest)) true [] rest

/-- An array gives no parameters, not even an empty one. -/
theorem gives_array (vs : List Value) : decoder.Gives (.array vs) (.error .mismatch) := by
  intro depth _ rest
  cases depth <;> rfl

end ParameterEntry

/-! ## Goods -/

namespace Good

variable {g : Good}

/-- The numbers are of 64 bits. -/
structure Fits (g : Good) : Prop where
  externalId : Signed64 g.externalId
  category : g.category.Fits
  price : Signed64 g.price
  priceRrc : Signed64 g.priceRrc
  quantity : Signed64 g.quantity

/-- The JSON form with this in the place of the parameters. -/
def withParameters (v : Value) (g : Good) : Value :=
  .object [("id", .int g.externalId), ("category", g.category.toJson), ("name", .text g.name),
    ("model", .text g.model), ("price", .int g.price), ("price_rrc", .int g.priceRrc),
    ("quantity", .int g.quantity), ("parameters", v)]

/-- The form of documents. -/
def toDocument (g : Good) : Value := g.withParameters (ParameterEntry.toMapping g.parameters)

theorem Fits.gives (h : g.Fits) {v : Value} {x : Except Fault (List ParameterEntry)}
    (hv : ParameterEntry.decoder.Gives v x) :
    decoder.Gives (g.withParameters v) (x.map fun ps => { g with parameters := ps }) := by
  refine LastDecides.record (.field rfl rfl ((reads_signed64 h.externalId).required _ _) ?_)
  refine .field rfl rfl (h.category.reads.required _ _) ?_
  refine .field rfl rfl ((reads_text g.name).required _ _) ?_
  refine .field rfl rfl ((reads_text g.model).defaulted _ _) ?_
  refine .field rfl rfl ((reads_signed64 h.price).required _ _) ?_
  refine .field rfl rfl ((reads_signed64 h.priceRrc).required _ _) ?_
  refine .field rfl rfl ((reads_signed64 h.quantity).required _ _) ?_
  exact .last rfl rfl (hv.defaulted _ _) rfl (by cases x <;> rfl)

/-- A good is refused for what is written of its parameters. -/
theorem Fits.gives_toJson (h : g.Fits) : decoder.Gives g.toJson (.error .mismatch) :=
  h.gives (ParameterEntry.gives_array _)

/-- What the form of documents gives. -/
def reread (g : Good) : Except Fault Good :=
  ((ParameterEntry.ofEntries (ParameterEntry.textEntries g.parameters)).mapError
    ParameterEntry.Objection.fault).map fun ps => { g with parameters := ps }

theorem Fits.gives_toDocument (h : g.Fits) : decoder.Gives g.toDocument g.reread :=
  h.gives (ParameterEntry.gives_object (ParameterEntry.ofMembers?_texts g.parameters))

theorem reread_eq_ok_iff : g.reread = .ok g ↔ ParameterEntry.WellNamed g.parameters := by
  have hset (ps : List ParameterEntry) : { g with parameters := ps } = g ↔ ps = g.parameters :=
    ⟨congrArg Good.parameters, fun h => h ▸ rfl⟩
  rw [reread, Except.map_eq_ok_iff]
  simp only [hset, Except.mapError_eq_ok_iff, exists_eq_right,
    ParameterEntry.ofEntries_textEntries_iff]

theorem Fits.isSpelled (h : g.Fits) {v : Value} (hv : v.IsSpelled) :
    (g.withParameters v).IsSpelled := by
  refine isSpelled_object ?_
  simp [hv, h.category.isSpelled, isSpelled_text, isSpelled_signed64 h.externalId,
    isSpelled_signed64 h.price, isSpelled_signed64 h.priceRrc, isSpelled_signed64 h.quantity]

theorem depth_withParameters_le (g : Good) {v : Value} {n : Nat} (hv : v.depth ≤ n) :
    (g.withParameters v).depth ≤ n + 1 := by
  refine depth_object_le ?_
  simp only [List.forall_mem_cons]
  exact ⟨Nat.zero_le n, Nat.zero_le n, Nat.zero_le n, Nat.zero_le n, Nat.zero_le n, Nat.zero_le n,
    Nat.zero_le n, hv, nofun⟩

theorem Fits.isSpelled_toJson (h : g.Fits) : g.toJson.IsSpelled := by
  refine h.isSpelled (isSpelled_array (List.forall_mem_map.mpr fun p _ => isSpelled_array ?_))
  simp [isSpelled_text]

theorem Fits.isSpelled_toDocument (h : g.Fits) : g.toDocument.IsSpelled :=
  h.isSpelled (isSpelled_object (List.forall_mem_map.mpr fun p _ => isSpelled_text p.2))

theorem depth_toJson_le (g : Good) : g.toJson.depth ≤ 3 :=
  g.depth_withParameters_le (depth_array_le (List.forall_mem_map.mpr fun _ _ => Nat.le_refl 1))

theorem depth_toDocument_le (g : Good) : g.toDocument.depth ≤ 2 :=
  g.depth_withParameters_le (depth_object_le (List.forall_mem_map.mpr fun _ _ => Nat.le_refl 0))

end Good

/-! ## Price lists -/

/-- The JSON form of a category. -/
def DeclaredCategory.toJson (c : DeclaredCategory) : Value :=
  .object [("id", c.id.toJson), ("name", .text c.name)]

theorem DeclaredCategory.reads {c : DeclaredCategory} (h : c.id.Fits) : decoder.Reads c.toJson c :=
  Fills.record (.field rfl rfl (h.reads.required _ _)
    (.field rfl rfl ((reads_text c.name).required _ _) (.done rfl)))

namespace PriceList

variable {l : PriceList}

/-- The numbers are of 64 bits. -/
structure Fits (l : PriceList) : Prop where
  categories : ∀ c ∈ l.categories, c.id.Fits
  goods : ∀ g ∈ l.goods, g.Fits

/-- The JSON form with the goods in this form. -/
def withGoods (form : Good → Value) (l : PriceList) : Value :=
  .object [("shop", .text l.shop),
    ("categories", .array (l.categories.map DeclaredCategory.toJson)),
    ("goods", .array (l.goods.map form))]

theorem toJson_eq (l : PriceList) : l.toJson = l.withGoods Good.toJson := rfl

/-- The form of documents. -/
def toDocument (l : PriceList) : Value := l.withGoods Good.toDocument

theorem Fits.run_withGoods (h : l.Fits) {form : Good → Value} {x : Good → Except Fault Good}
    (hgives : ∀ g ∈ l.goods, Good.decoder.Gives (form g) (x g))
    (hspelled : ∀ g ∈ l.goods, (form g).IsSpelled) (hdepth : ∀ g ∈ l.goods, (form g).depth ≤ 3) :
    decoder.run (l.withGoods form).render =
      (l.goods.mapM x).map fun gs => { l with goods := gs } := by
  have hcategories : (Decoder.list DeclaredCategory.decoder).Reads
      (.array (l.categories.map DeclaredCategory.toJson)) l.categories :=
    reads_list fun c hc => DeclaredCategory.reads (h.categories c hc)
  have hgoods := gives_list hgives
  have hdecides : decoder.Gives (l.withGoods form)
      ((l.goods.mapM x).map fun gs => { l with goods := gs }) := by
    refine LastDecides.record (.field rfl rfl ((reads_text l.shop).required _ _) ?_)
    refine .field rfl rfl (hcategories.required _ _) ?_
    exact .last rfl rfl (hgoods.required _ _) rfl (by cases l.goods.mapM x <;> rfl)
  refine hdecides.run ?_ ?_
  · have hdeclared : (Value.array (l.categories.map DeclaredCategory.toJson)).depth ≤ 4 :=
      depth_array_le (List.forall_mem_map.mpr fun _ _ => Nat.le_add_left 1 2)
    have hforms : (Value.array (l.goods.map form)).depth ≤ 4 :=
      depth_array_le (List.forall_mem_map.mpr hdepth)
    have hmembers : (l.withGoods form).depth ≤ 5 := by
      refine depth_object_le ?_
      simp only [List.forall_mem_cons]
      exact ⟨Nat.zero_le 4, hdeclared, hforms, nofun⟩
    exact Nat.le_trans hmembers (by decide)
  · have hdeclared : (Value.array (l.categories.map DeclaredCategory.toJson)).IsSpelled := by
      refine isSpelled_array (List.forall_mem_map.mpr fun c hc => isSpelled_object ?_)
      simp [(h.categories c hc).isSpelled, isSpelled_text]
    have hforms : (Value.array (l.goods.map form)).IsSpelled :=
      isSpelled_array (List.forall_mem_map.mpr hspelled)
    refine isSpelled_object ?_
    simp [isSpelled_text, hdeclared, hforms]

/-- A price list with goods is refused for what is written of its first one. -/
theorem Fits.run_toJson (h : l.Fits) :
    decoder.run l.toJson.render = if l.goods = [] then .ok l else .error .mismatch := by
  rw [toJson_eq, h.run_withGoods (x := fun _ => .error .mismatch)
    (fun g hg => (h.goods g hg).gives_toJson) (fun g hg => (h.goods g hg).isSpelled_toJson)
    fun g _ => g.depth_toJson_le]
  obtain ⟨shop, categories, goods⟩ := l
  cases goods with
  | nil => rfl
  | cons g gs => rfl

/-- In the form of documents a price list is read back if all its goods are. -/
theorem Fits.run_toDocument_iff (h : l.Fits) : decoder.run l.toDocument.render = .ok l ↔
    ∀ g ∈ l.goods, ParameterEntry.WellNamed g.parameters := by
  have hset (gs : List Good) : { l with goods := gs } = l ↔ gs = l.goods :=
    ⟨congrArg PriceList.goods, fun h => h ▸ rfl⟩
  rw [toDocument, h.run_withGoods (fun g hg => (h.goods g hg).gives_toDocument)
    (fun g hg => (h.goods g hg).isSpelled_toDocument)
    fun g _ => Nat.le_succ_of_le g.depth_toDocument_le, Except.map_eq_ok_iff]
  simp only [hset, exists_eq_right, mapM_eq_ok_self_iff, Good.reread_eq_ok_iff]

/-- A price list is read back from its JSON form exactly if it has no goods, and otherwise refused.
In the form of documents it is read back exactly if the parameters of each good have names that are
not blank and differ. -/
theorem run_render_iff (h : l.Fits) :
    (decoder.run l.toJson.render = .ok l ↔ l.goods = []) ∧
      (l.goods ≠ [] → decoder.run l.toJson.render = .error .mismatch) ∧
      (decoder.run l.toDocument.render = .ok l ↔
        ∀ g ∈ l.goods, ParameterEntry.WellNamed g.parameters) := by
  refine ⟨?_, fun hgoods => ?_, h.run_toDocument_iff⟩
  · rw [h.run_toJson]
    split
    · rename_i hgoods
      exact iff_of_true rfl hgoods
    · rename_i hgoods
      exact iff_of_false nofun hgoods
  · rw [h.run_toJson, if_neg hgoods]

/-- A price list of two goods, of which one has parameters. -/
def toolList : PriceList where
  shop := "Acme"
  categories := [⟨⟨1⟩, "Tools"⟩]
  goods := [⟨1, ⟨1⟩, "Hammer", "H1", 500, 700, 10, [("weight", "1kg"), ("длина", "30 \"cm\"")]⟩,
    ⟨-2 ^ 63, ⟨1⟩, "Saw", "", 1, 2, 3, []⟩]

theorem fits_toolList : toolList.Fits := by
  constructor
  · simp only [toolList, List.forall_mem_cons]
    exact ⟨by decide, nofun⟩
  · simp only [toolList, List.forall_mem_cons]
    exact ⟨⟨by decide, by decide, by decide, by decide, by decide⟩,
      ⟨by decide, by decide, by decide, by decide, by decide⟩, nofun⟩

theorem wellNamed_toolList :
    ∀ g ∈ toolList.goods, ParameterEntry.WellNamed g.parameters := by
  simp only [toolList, List.forall_mem_cons]
  exact ⟨⟨by decide, by decide⟩, ⟨nofun, List.nodup_nil⟩, nofun⟩

/-- It is read back from the form of documents alone. -/
theorem run_render_toolList : toolList.Fits ∧
    decoder.run toolList.toJson.render = .error .mismatch ∧
      decoder.run toolList.toDocument.render = .ok toolList := by
  obtain ⟨-, hrefused, hread⟩ := run_render_iff fits_toolList
  exact ⟨fits_toolList, hrefused nofun, hread.mpr wellNamed_toolList⟩

/-- The names of its parameters are not blank and differ, and still it is not read back. -/
theorem exists_not_read_back : ∃ l : PriceList, l.Fits ∧
    (∀ g ∈ l.goods, ParameterEntry.WellNamed g.parameters) ∧
      decoder.run l.toJson.render ≠ .ok l := by
  refine ⟨toolList, fits_toolList, wellNamed_toolList, ?_⟩
  rw [fits_toolList.run_toJson]
  exact nofun

end PriceList

end Marketplace
