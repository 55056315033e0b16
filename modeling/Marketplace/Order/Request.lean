import Marketplace.Order.Basic
set_option autoImplicit false

/-!
# Requests about orders

The bodies of requests about baskets and orders.  Lists of items come inline or as a JSON text in a
string, and numbers come as integers or as digit strings.  What is added to a basket is checked
entry by entry; updates and removals pass over entries that are not well formed.
-/

namespace Marketplace

open Json (Value Decoder)

/-- A list that is given inline, or encoded as a JSON text. -/
inductive Items (α : Type)
  | inline (items : List α)
  | encoded (text : String)
  deriving Repr

namespace Items

variable {α : Type}

/-- Reads a list in either form. -/
def decoder (item : Decoder α) : Decoder (Items α) :=
  .viaTree fun v =>
    match (Decoder.list item).ofTree v with
    | some xs => some (.inline xs)
    | none =>
      match v with
      | .text s => some (.encoded s)
      | _ => none

/-- The list itself. -/
def entries (item : Decoder α) : Items α → Except Refusal (List α)
  | .inline xs => .ok xs
  | .encoded s =>
    match (Decoder.list item).run s with
    | .ok xs => .ok xs
    | .error _ => .error (.unreadable "items: not a list of the expected form")

end Items

/-- A member of a request that must be there. -/
def missingItems : Refusal := .invalidArguments "items: is required"

/-- An integer, or a text of digits that denotes one. -/
def looseInteger? : Value → Option Int
  | .number n => n.toSigned?
  | .text s =>
    if Text.isDigits s.toList then (Text.readInteger .signed64 s).toOption else none
  | _ => none

/-- An integer. -/
def strictInteger? : Value → Option Int
  | .number n => n.toSigned?
  | _ => none

/-- The number, if it is positive. -/
def positive? (n : Int) : Option Int := if 0 < n then some n else none

/-- A positive number in a field that must be there. -/
def positiveField (field reason : String) (v : Option Value) : Except FieldFault Int :=
  match v with
  | none | some .null => .error (.missing field)
  | some v =>
    match (looseInteger? v).bind positive? with
    | some n => .ok n
    | none => .error ⟨field, reason⟩

/-- Two numbers, or the faults of both. -/
def bothFields (a b : Except FieldFault Int) : Except Refusal (Int × Int) :=
  match a, b with
  | .ok a, .ok b => .ok (a, b)
  | .error e, .ok _ => .error (FieldFault.refusal [e])
  | .ok _, .error e => .error (FieldFault.refusal [e])
  | .error e, .error f => .error (FieldFault.refusal [e, f])

/-! ## Adding -/

/-- An entry to add, unchecked. -/
structure AddInput where
  listing : Option Value
  quantity : Option Value
  deriving Repr

/-- A checked entry to add. -/
structure AddItem where
  listing : ListingId
  quantity : Int
  deriving DecidableEq, Repr

namespace AddInput

/-- Reads an entry; the listing has a second, older name. -/
def decoder : Decoder AddInput :=
  .record ⟨none, none⟩ [
    (Decoder.Field.nullable "listing" .value fun v a => { a with listing := v }).orNamed
      "product_info",
    .nullable "quantity" .value fun v a => { a with quantity := v }]

/-- The checked entry; the faults name its position. -/
def check (a : AddInput) (index : Nat) : Except Refusal AddItem :=
  (bothFields
    (positiveField s!"items[{index}].listing" "must be a positive integer id" a.listing)
    (positiveField s!"items[{index}].quantity" "must be a positive integer" a.quantity)).map
      fun p => ⟨⟨p.1⟩, p.2⟩

end AddInput

/-- A request to add items. -/
structure AddRequest where
  items : Option (Items AddInput)

namespace AddRequest

/-- Reads the request. -/
def decoder : Decoder AddRequest :=
  .record ⟨none⟩ [.nullable "items" (Items.decoder AddInput.decoder) fun v _ => ⟨v⟩]

/-- The entries to add. -/
def entries (r : AddRequest) : Except Refusal (List AddInput) :=
  match r.items with
  | some items => items.entries AddInput.decoder
  | none => .error missingItems

end AddRequest

/-! ## Updating -/

/-- An entry that sets a quantity, unchecked. -/
structure UpdateInput where
  id : Option Value
  quantity : Option Value
  deriving Repr

namespace UpdateInput

/-- Reads an entry. -/
def decoder : Decoder UpdateInput :=
  .record ⟨none, none⟩ [
    .nullable "id" .value fun v u => { u with id := v },
    .nullable "quantity" .value fun v u => { u with quantity := v }]

/-- The entry of any value: one that cannot be read as an entry has no members. -/
def ofValue (v : Value) : UpdateInput := (decoder.ofTree v).getD ⟨none, none⟩

/-- The item and its new quantity, if both are positive integers. -/
def wellFormed? (u : UpdateInput) : Option (OrderItemId × Int) := do
  let id ← (← u.id.bind strictInteger?) |> positive?
  let quantity ← (← u.quantity.bind strictInteger?) |> positive?
  return (⟨id⟩, quantity)

end UpdateInput

/-- A request to set quantities. -/
structure UpdateRequest where
  items : Option (Items Value)

namespace UpdateRequest

/-- Reads the request. -/
def decoder : Decoder UpdateRequest :=
  .record ⟨none⟩ [.nullable "items" (Items.decoder .value) fun v _ => ⟨v⟩]

/-- The entries, well formed or not. -/
def entries (r : UpdateRequest) : Except Refusal (List UpdateInput) :=
  match r.items with
  | some items => (items.entries .value).map (·.map UpdateInput.ofValue)
  | none => .error missingItems

end UpdateRequest

/-! ## Removing -/

/-- Identifiers in a list, or in a text with commas between them. -/
inductive IdList
  | values (vs : List Value)
  | commaSeparated (text : String)
  deriving Repr

namespace IdList

/-- Reads a list of identifiers in either form. -/
def decoder : Decoder IdList :=
  .viaTree fun v =>
    match v.unify with
    | .array vs => some (.values vs)
    | .text s => some (.commaSeparated s)
    | _ => none

/-- The pieces of a text between its commas. -/
def pieces : List Char → List (List Char)
  | [] => [[]]
  | c :: cs =>
    if c == ',' then [] :: pieces cs
    else
      match pieces cs with
      | p :: ps => (c :: p) :: ps
      | [] => [[c]]

/-- The number of a piece, if it consists of digits between blanks. -/
def pieceValue? (piece : List Char) : Option Int :=
  let ds := Text.trimChars piece
  if Text.isDigits ds then (Text.readIntegerChars .signed64 ds).toOption else none

/-- The numbers in the list. -/
def numbers : IdList → List Int
  | .values vs => vs.filterMap looseInteger?
  | .commaSeparated s => (pieces s.toList).filterMap pieceValue?

/-- The positive numbers in ascending order, each once, as identifiers of a kind. -/
def ids (kind : IdKind) (l : IdList) : List (Id kind) :=
  Id.sorted ((l.numbers.filterMap positive?).map Id.mk)

end IdList

/-- A request that names things to remove. -/
structure RemoveRequest where
  items : Option IdList

namespace RemoveRequest

/-- Reads the request. -/
def decoder : Decoder RemoveRequest :=
  .record ⟨none⟩ [.nullable "items" IdList.decoder fun v _ => ⟨v⟩]

/-- The identifiers of the things to remove. -/
def ids (kind : IdKind) (r : RemoveRequest) : Except Refusal (List (Id kind)) :=
  match r.items with
  | some l => .ok (l.ids kind)
  | none => .error missingItems

end RemoveRequest

/-! ## Checking out -/

/-- A request to place an order. -/
structure CheckoutRequest where
  order : Option Value
  contact : Option Value

namespace CheckoutRequest

/-- Reads the request. -/
def decoder : Decoder CheckoutRequest :=
  .record ⟨none, none⟩ [
    .nullable "id" .value fun v c => { c with order := v },
    .nullable "contact" .value fun v c => { c with contact := v }]

/-- The order to place and the contact it goes to. -/
def check (r : CheckoutRequest) : Except Refusal (OrderId × ContactId) :=
  (bothFields (positiveField "id" "must be a positive integer id" r.order)
    (positiveField "contact" "must be a positive integer id" r.contact)).map
      fun p => (⟨p.1⟩, ⟨p.2⟩)

end CheckoutRequest

end Marketplace
