set_option autoImplicit false

/-!
# Integers in text

Reading a decimal integer into a bounded range, with the reason when it fails, and the two widths
the marketplace stores.  A sign may stand in front; a minus sign only where the range has negative
numbers.
-/

namespace Marketplace.Text

/-- Why a text is not an integer of the range. -/
inductive IntegerFault
  /-- There is nothing to read. -/
  | empty
  /-- A character is no digit, or a sign stands alone. -/
  | invalidDigit
  /-- The number lies above the range. -/
  | tooLarge
  /-- The number lies below the range. -/
  | tooSmall
  deriving DecidableEq, Repr

/-- The wording of the reason. -/
def IntegerFault.message : IntegerFault → String
  | .empty => "cannot parse integer from empty string"
  | .invalidDigit => "invalid digit found in string"
  | .tooLarge => "number too large to fit in target type"
  | .tooSmall => "number too small to fit in target type"

/-- A range of integers, both ends included. -/
structure IntegerRange where
  low : Int
  high : Int
  deriving DecidableEq, Repr

namespace IntegerRange

/-- The signed integers of 64 bits. -/
def signed64 : IntegerRange := ⟨-9223372036854775808, 9223372036854775807⟩

/-- The natural numbers below `2 ^ bits`. -/
def unsigned (bits : Nat) : IntegerRange := ⟨0, (Nat.pow 2 bits : Int) - 1⟩

/-- The number lies in the range. -/
def contains (r : IntegerRange) (n : Int) : Bool := r.low ≤ n && n ≤ r.high

/-- The nearest number of the range. -/
def clamp (r : IntegerRange) (n : Int) : Int :=
  if n < r.low then r.low else if r.high < n then r.high else n

end IntegerRange

/-- The characters are decimal digits of ASCII, at least one. -/
def isDigits (cs : List Char) : Bool := !cs.isEmpty && cs.all Char.isDigit

/-- The value of a list of decimal digits. -/
def digitsValue (cs : List Char) : Nat :=
  cs.foldl (fun n c => 10 * n + (c.toNat - '0'.toNat)) 0

/-- Extends the number `n` by the digits that follow.  The first character that is no digit, or
takes the number beyond `limit`, decides the fault; `beyond` names the latter. -/
def extendBy (limit : Nat) (beyond : IntegerFault) (n : Nat) : List Char → Except IntegerFault Nat
  | [] => .ok n
  | c :: cs =>
    if c.isDigit then
      let m := 10 * n + (c.toNat - '0'.toNat)
      if limit < m then .error beyond else extendBy limit beyond m cs
    else .error .invalidDigit

/-- The magnitude of a number after its sign; a sign needs at least one digit. -/
def readMagnitude (limit : Nat) (beyond : IntegerFault) (cs : List Char) :
    Except IntegerFault Nat :=
  if cs.isEmpty then .error .invalidDigit else extendBy limit beyond 0 cs

/-- Reads an optional sign and digits. -/
def readIntegerChars (r : IntegerRange) (cs : List Char) : Except IntegerFault Int :=
  match cs with
  | [] => .error .empty
  | '+' :: ds => (readMagnitude r.high.toNat .tooLarge ds).map fun n => (n : Int)
  | '-' :: ds =>
    if r.low < 0 then (readMagnitude (-r.low).toNat .tooSmall ds).map fun n => -(n : Int)
    else .error .invalidDigit
  | ds => (readMagnitude r.high.toNat .tooLarge ds).map fun n => (n : Int)

/-- Reads the whole text as an integer of the range. -/
def readInteger (r : IntegerRange) (s : String) : Except IntegerFault Int :=
  readIntegerChars r s.toList

end Marketplace.Text
