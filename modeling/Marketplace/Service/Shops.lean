import Marketplace.Service.Basic
set_option autoImplicit false

/-!
# The shop of an account
-/

namespace Marketplace.Shops

/-- The account has no shop. -/
def noShop : Refusal := .notFound "no shop for this account"

/-- The shop of a shop account. -/
def own (a : Account) : Service Shop := do
  Service.ofExcept a.requireShop
  let shop ← Service.catalog (.shopByOwner a.id)
  Service.orRefuse noShop shop

/-- Opens the shop for orders if it is closed, and closes it if it is open. -/
def toggle (a : Account) : Service Shop := do
  let shop ← own a
  let changed ← Service.catalog (.setAccepting shop.id !shop.acceptingOrders)
  Service.orRefuse (.notFound s!"shop {shop.id}") changed

end Marketplace.Shops
