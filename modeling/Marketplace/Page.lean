import Marketplace.Json.Value
set_option autoImplicit false

/-!
# Pages

Long lists are served in pages.  `PageRequest.normalize` brings a request into the allowed range,
and `Page.cut` takes the page out of the whole list.
-/

namespace Marketplace

/-- Which page of which size is wanted; pages count from one. -/
structure PageRequest where
  page : Nat
  size : Nat
  deriving DecidableEq, Repr

namespace PageRequest

/-- The page size when none is asked for. -/
def defaultSize : Nat := 5

/-- The largest page size. -/
def maxSize : Nat := 100

/-- The nearest request with a page from one on and a size between one and `maxSize`. -/
def normalize (r : PageRequest) : PageRequest :=
  ⟨max r.page 1, min (max r.size 1) maxSize⟩

/-- The request of optional numbers. -/
def ofOptions (page size : Option Nat) : PageRequest :=
  normalize ⟨page.getD 1, size.getD defaultSize⟩

/-- The first page of the default size. -/
def first : PageRequest := ⟨1, defaultSize⟩

/-- How many entries stand before the page. -/
def offset (r : PageRequest) : Nat := (r.page - 1) * r.size

/-- How many entries the page holds at most. -/
def limit (r : PageRequest) : Nat := r.size

/-- The JSON form. -/
def toJson (r : PageRequest) : Json.Value :=
  .object [("page", .nat r.page), ("page_size", .nat r.size)]

end PageRequest

/-- A page of a list with the length of the whole list. -/
structure Page (α : Type) where
  items : List α
  total : Nat
  page : Nat
  size : Nat
  deriving DecidableEq, Repr

namespace Page

variable {α β : Type}

/-- The page of a list that the normalized request asks for. -/
def cut (all : List α) (r : PageRequest) : Page α :=
  let r := r.normalize
  ⟨(all.drop r.offset).take r.limit, all.length, r.page, r.size⟩

/-- The page with a function applied to every item. -/
def map (f : α → β) (p : Page α) : Page β := ⟨p.items.map f, p.total, p.page, p.size⟩

/-- The JSON form. -/
def toJson (f : α → Json.Value) (p : Page α) : Json.Value :=
  .object [("items", .array (p.items.map f)), ("total", .nat p.total), ("page", .nat p.page),
    ("page_size", .nat p.size)]

end Page

end Marketplace
