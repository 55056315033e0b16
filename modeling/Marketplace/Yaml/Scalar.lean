import Marketplace.Decimal.Shortest
import Marketplace.Text.Integer
set_option autoImplicit false

/-!
# The core schema

What a plain scalar means: null, a truth value, an integer, a number with a fraction, or else a
text.  Integers may be written in base two, eight or sixteen; digits after a leading zero are a
text.
-/

namespace Marketplace.Yaml

/-- Digits with a leading zero, after a sign if there is one. -/
def isZeroLed (cs : List Char) : Bool :=
  let ds := match cs with
    | '-' :: ds | '+' :: ds => ds
    | ds => ds
  1 < ds.length && ds.head? == some '0' && ds.all Char.isDigit

/-- The value of a digit in a base up to sixteen. -/
def baseDigit? (base : Nat) (c : Char) : Option Nat :=
  let d? :=
    if '0' ≤ c && c ≤ '9' then some (c.toNat - '0'.toNat)
    else if 'a' ≤ c && c ≤ 'f' then some (c.toNat - 'a'.toNat + 10)
    else if 'A' ≤ c && c ≤ 'F' then some (c.toNat - 'A'.toNat + 10)
    else none
  d?.filter (· < base)

/-- The value of at least one digit of a base. -/
def baseNumber? (base : Nat) (cs : List Char) : Option Nat :=
  if cs.isEmpty then none
  else cs.foldlM (fun n c => (baseDigit? base c).map fun d => base * n + d) 0

/-- The base that a number's first two characters name. -/
def namedBase? : List Char → Option (Nat × List Char)
  | '0' :: 'x' :: cs => some (16, cs)
  | '0' :: 'o' :: cs => some (8, cs)
  | '0' :: 'b' :: cs => some (2, cs)
  | _ => none

/-- The magnitude of a number after its sign. -/
def magnitude? (cs : List Char) : Option Nat :=
  match namedBase? cs with
  | some (base, ds) => baseNumber? base ds
  | none => if isZeroLed cs then none else baseNumber? 10 cs

/-- The integer that a plain scalar denotes, however large. -/
def integer? (cs : List Char) : Option Int :=
  match cs with
  | '+' :: ds => (magnitude? ds).map fun n => (n : Int)
  | '-' :: ds => (magnitude? ds).map fun n => -(n : Int)
  | ds => (magnitude? ds).map fun n => (n : Int)

/-- The integer that a plain scalar denotes, if it fits into 64 bits with a sign. -/
def signedInteger? (s : String) : Option Int :=
  (integer? s.toList).filter Text.IntegerRange.signed64.contains

/-- An exponent after its letter. -/
def exponent? (cs : List Char) : Option Int :=
  match cs with
  | '+' :: ds => if Text.isDigits ds then some (Text.digitsValue ds) else none
  | '-' :: ds => if Text.isDigits ds then some (-(Text.digitsValue ds : Int)) else none
  | ds => if Text.isDigits ds then some (Text.digitsValue ds) else none

/-- A decimal number without its sign: digits with or without a point, and perhaps an exponent. -/
def decimal? (negative : Bool) (cs : List Char) : Option Binary64 :=
  let whole := cs.takeWhile Char.isDigit
  let rest := cs.dropWhile Char.isDigit
  let (fraction, rest) := match rest with
    | '.' :: rest => (rest.takeWhile Char.isDigit, rest.dropWhile Char.isDigit)
    | rest => ([], rest)
  let digits := whole ++ fraction
  if digits.isEmpty then none
  else
    let scale? := match rest with
      | [] => some 0
      | 'e' :: rest | 'E' :: rest => exponent? rest
      | _ => none
    scale?.map fun e =>
      Binary64.ofDecimal negative (Text.digitsValue digits) digits.length
        (e - fraction.length)

/-- The names of infinity. -/
def infinityNames : List String := [".inf", ".Inf", ".INF"]

/-- The names of what is no number. -/
def notANumberNames : List String := [".nan", ".NaN", ".NAN"]

/-- The finite number that a plain scalar denotes in decimal. -/
def finite? (cs : List Char) : Option Binary64 :=
  let x? := match cs with
    | '+' :: ds => decimal? false ds
    | '-' :: ds => decimal? true ds
    | ds => decimal? false ds
  x?.filter fun x => !x.isInfinite

/-- The number that a plain scalar denotes in decimal or by name. -/
def float? (s : String) : Option Binary64 :=
  if infinityNames.contains s || (infinityNames.map ("+" ++ ·)).contains s then
    some (.infinite false)
  else if (infinityNames.map ("-" ++ ·)).contains s then some (.infinite true)
  else if notANumberNames.contains s then some .notANumber
  else finite? s.toList

/-- The scalar is a name of null. -/
def isNull (s : String) : Bool := ["null", "Null", "NULL", "~"].contains s

/-- The truth value that a scalar names. -/
def bool? (s : String) : Option Bool :=
  if ["true", "True", "TRUE"].contains s then some true
  else if ["false", "False", "FALSE"].contains s then some false
  else none

/-- What a plain scalar means. -/
inductive Meaning
  | null
  | bool (b : Bool)
  | int (n : Int)
  /-- An integer of more than 64 and at most 128 bits. -/
  | wideInt
  | float (x : Binary64)
  | text
  deriving DecidableEq, Repr

/-- The integers that fit into 64 bits with or without a sign. -/
def fits64 (n : Int) : Bool := -(Nat.pow 2 63 : Int) ≤ n && n < (Nat.pow 2 64 : Int)

/-- The integers that fit into 128 bits with or without a sign. -/
def fits128 (n : Int) : Bool := -(Nat.pow 2 127 : Int) ≤ n && n < (Nat.pow 2 128 : Int)

/-- The integer that a scalar denotes, sorted by its size. -/
def integerMeaning? (s : String) : Option Meaning :=
  match integer? s.toList with
  | some n => if fits64 n then some (.int n) else if fits128 n then some .wideInt else none
  | none => none

/-- What a plain scalar means. -/
def meaning (s : String) : Meaning :=
  if s.isEmpty || isNull s then .null
  else
    match bool? s with
    | some b => .bool b
    | none =>
      match integerMeaning? s with
      | some m => m
      | none =>
        if isZeroLed s.toList then .text
        else
          match float? s with
          | some x => .float x
          | none => .text

/-- The text of a number. -/
def floatText : Binary64 → String
  | .finite s m e => Binary64.finiteText s m e
  | .infinite s => if s then "-.inf" else ".inf"
  | .notANumber => ".nan"

end Marketplace.Yaml
