import Marketplace.Service.Basic
set_option autoImplicit false

/-!
# Looking at the catalog
-/

namespace Marketplace.Search

/-- A page of the listings that a filter accepts. -/
def listings (filter : ListingFilter) (page : PageRequest) : Service (Page ListingView) :=
  .catalog (.listings filter.normalize page.normalize)

/-- One listing. -/
def listing (id : ListingId) : Service ListingView := do
  let found ← Service.catalog (.listing id)
  Service.orRefuse (.notFound s!"listing {id}") found

/-- A page of the categories. -/
def categories (page : PageRequest) : Service (Page Category) :=
  .catalog (.categories page.normalize)

/-- A page of the shops that accept orders. -/
def shops (page : PageRequest) : Service (Page Shop) := .catalog (.acceptingShops page.normalize)

end Marketplace.Search
