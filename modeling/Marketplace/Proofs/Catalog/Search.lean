import Marketplace.Catalog.Filter
import Marketplace.Proofs.Text.Blank
import Marketplace.Proofs.Text.Lowercase
set_option autoImplicit false

/-!
# Finding listings by a text

Listings are looked for by a text in the model, or in the model and the product name.  Query and
name are lower-cased apart, and a capital sigma may come out differently in either.  A query finds
all listings in which it occurs exactly if its own characters settle the form of each of its sigmas
(`finds_iff_settled`), so that one without a capital sigma always does.
-/

namespace Marketplace

/-- A listing whose model and product have this name. -/
def ListingView.named (name : String) : ListingView :=
  ⟨⟨1⟩, name, 1, 5, 10, 20, ⟨1⟩, name, ⟨1⟩, "Tools", ⟨⟨1⟩, "Acme", true⟩, []⟩

namespace ListingFilter

/-- The query as a condition on the model alone. -/
def byModel (query : String) : ListingFilter := { all with model := some query }

/-- The query as a search. -/
def bySearch (query : String) : ListingFilter := { all with search := some query }

/-- The trimmed query occurs in the name, character for character. -/
def Occurs (query name : String) : Prop := (Text.trim query).toList <:+: name.toList

variable {query : String}

theorem accepts_byModel (h : Text.isBlankText query = false) (l : ListingView) :
    (byModel query).normalize.accepts l = Text.containsFolded l.model (Text.trim query) := by
  simp [byModel, all, normalize, accepts, Text.nonBlank?_of_not_blank h]

theorem accepts_bySearch (h : Text.isBlankText query = false) (l : ListingView) :
    (bySearch query).normalize.accepts l =
      (Text.containsFolded l.model (Text.trim query) ||
        Text.containsFolded l.productName (Text.trim query)) := by
  simp [bySearch, all, normalize, accepts, Text.nonBlank?_of_not_blank h]

/-- A query finds each listing in which it occurs exactly if its own characters settle the forms of
its sigmas, both as a condition on the model and as a search. -/
theorem finds_iff_settled (h : Text.isBlankText query = false) :
    ((∀ l : ListingView, Occurs query l.model → (byModel query).normalize.accepts l = true) ↔
        Text.Settled (Text.trim query).toList) ∧
      ((∀ l : ListingView, Occurs query l.model ∨ Occurs query l.productName →
          (bySearch query).normalize.accepts l = true) ↔
        Text.Settled (Text.trim query).toList) := by
  simp only [accepts_byModel h, accepts_bySearch h, Bool.or_eq_true]
  rw [← Text.containsFolded_of_occurs_iff]
  refine ⟨⟨fun hfinds text hoccurs => hfinds (.named text) hoccurs,
    fun hfound l hoccurs => hfound l.model hoccurs⟩, fun hfinds text hoccurs => ?_,
    fun hfound l hoccurs => ?_⟩
  · exact or_self_iff.mp (hfinds (.named text) (.inl hoccurs))
  · exact hoccurs.imp (hfound l.model) (hfound l.productName)

/-- The sigma of the first query stands between letters and blanks of the query; the second ends
with its sigma, so that a letter may follow. -/
theorem finds_iff_settled_street :
    Text.isBlankText " ΟΔΟΣ 5 " = false ∧
      (bySearch " ΟΔΟΣ 5 ").normalize.accepts (.named "νέα ΟΔΟΣ 5α") = true ∧
      ¬∀ l : ListingView, Occurs "ΟΔΟΣ" l.model →
        (byModel "ΟΔΟΣ").normalize.accepts l = true := by
  refine ⟨by decide, ?_, ?_⟩
  · refine (finds_iff_settled (by decide)).2.mpr (by decide +kernel) _ (.inl ?_)
    exact ⟨"νέα ".toList, "α".toList, by decide⟩
  · rw [(finds_iff_settled (by decide)).1]
    decide +kernel

/-- A name in which the sigma of the query does not end the word is not found. -/
theorem exists_occurrence_not_found :
    ∃ (l : ListingView) (query : String), Text.isBlankText query = false ∧
      Occurs query l.model ∧ Occurs query l.productName ∧
      (byModel query).normalize.accepts l = false ∧
      (bySearch query).normalize.accepts l = false :=
  ⟨.named "ΟΔΟΣΑ", "ΟΔΟΣ", by decide, ⟨[], ['Α'], by decide⟩, ⟨[], ['Α'], by decide⟩,
    by decide +kernel, by decide +kernel⟩

end ListingFilter

end Marketplace
