import Marketplace.Refusal
import Marketplace.Json.Decoder
set_option autoImplicit false

/-!
# The life of an order

An order starts as a basket and goes forward one step at a time; until it is delivered it may be
canceled.
-/

namespace Marketplace

/-- Where an order stands. -/
inductive OrderStatus
  | basket
  | new
  | confirmed
  | assembled
  | sent
  | delivered
  | canceled
  deriving DecidableEq, Repr

namespace OrderStatus

/-- Every status, in the order of an order's life. -/
def all : List OrderStatus := [.basket, .new, .confirmed, .assembled, .sent, .delivered, .canceled]

/-- The name in texts and in JSON. -/
def name : OrderStatus → String
  | .basket => "basket"
  | .new => "new"
  | .confirmed => "confirmed"
  | .assembled => "assembled"
  | .sent => "sent"
  | .delivered => "delivered"
  | .canceled => "canceled"

/-- The place on the way from basket to delivery; a canceled order has left it. -/
def rank : OrderStatus → Option Nat
  | .basket => some 0
  | .new => some 1
  | .confirmed => some 2
  | .assembled => some 3
  | .sent => some 4
  | .delivered => some 5
  | .canceled => none

/-- The order goes nowhere from here. -/
def isTerminal (s : OrderStatus) : Bool := s == .delivered || s == .canceled

/-- The order may go to the other status in one step. -/
def canBecome (s next : OrderStatus) : Bool :=
  if s.isTerminal then false
  else if next == .canceled then true
  else
    match s.rank, next.rank with
    | some i, some j => j == i + 1
    | _, _ => false

/-- The next status, if the step is allowed. -/
def become (s next : OrderStatus) : Except Refusal OrderStatus :=
  if s.canBecome next then .ok next
  else .error (.invalidTransition s!"order cannot move from '{s.name}' to '{next.name}'")

/-- Reads a name. -/
def parse (t : String) : Except Refusal OrderStatus :=
  match all.find? (·.name == t) with
  | some s => .ok s
  | none => .error (.invalidArguments s!"unknown order status '{t}'")

/-- The JSON form. -/
def toJson (s : OrderStatus) : Json.Value := .text s.name

/-- Reads the JSON form. -/
def decoder : Json.Decoder OrderStatus := .oneOf (all.map fun s => (s.name, .plain s))

end OrderStatus

end Marketplace
