import Marketplace.Decimal.Shortest
set_option autoImplicit false

/-!
# JSON numbers

A number of a JSON text is kept as an integer when it is written as one and fits into 64 bits,
signed or unsigned, and as a double otherwise.  A double is found in two roundings: the leading
digits that fit into 64 bits are rounded, and then scaled by a rounded power of ten.
-/

namespace Marketplace.Json

/-- A number: an integer of 64 bits, or a double. -/
inductive Number
  | int (n : Int)
  | float (x : Binary64)
  deriving DecidableEq, Repr

namespace Number

/-- The greatest significand that is read exactly. -/
def maxSignificand : Nat := 18446744073709551615

/-- The digits gathered so far: the significand, its scale, and whether a digit has been left
out, after which no further digit of the same part counts. -/
structure Digits where
  significand : Nat
  scale : Int
  deriving DecidableEq, Repr

/-- Takes integer digits into the significand as long as it fits; each digit left out raises the
scale by one.  The Boolean says whether a digit was left out. -/
def takeInteger (n : Nat) : List Char → Nat × Int × Bool
  | [] => (n, 0, false)
  | c :: cs =>
    let m := 10 * n + (c.toNat - '0'.toNat)
    if m ≤ maxSignificand then takeInteger m cs else (n, (cs.length : Int) + 1, true)

/-- Takes fraction digits as long as the significand fits; each one taken lowers the scale. -/
def takeFraction (n : Nat) (scale : Int) : List Char → Nat × Int
  | [] => (n, scale)
  | c :: cs =>
    let m := 10 * n + (c.toNat - '0'.toNat)
    if m ≤ maxSignificand then takeFraction m (scale - 1) cs else (n, scale)

/-- Scales a double by a power of ten, in steps of `10 ^ 308` while it is below that range.
Nothing when the result is too large for a double. -/
def scaleBy (x : Binary64) (exponent : Int) : Nat → Option Binary64
  | 0 => some x
  | fuel + 1 =>
    if exponent.natAbs ≤ 308 then
      if 0 ≤ exponent then
        let y := x.timesPowerOfTen exponent.toNat
        if y.isInfinite then none else some y
      else some (x.overPowerOfTen exponent.natAbs)
    else if x.isZero then some x
    else if 0 ≤ exponent then none
    else scaleBy (x.overPowerOfTen 308) (exponent + 308) fuel

/-- The double `± significand * 10 ^ exponent`. -/
def ofParts (negative : Bool) (significand : Nat) (exponent : Int) : Option Number :=
  (scaleBy (Binary64.ofNat significand) exponent 4).map fun x =>
    .float (if negative then x.negate else x)

/-- The greatest power of ten that an exponent may name. -/
def maxExponentValue : Nat := 2147483647

/-- The value of an exponent, nothing if it is out of all proportion. -/
def exponentValue? (n : Nat) : List Char → Option Nat
  | [] => some n
  | c :: cs =>
    let m := 10 * n + (c.toNat - '0'.toNat)
    if m ≤ maxExponentValue then exponentValue? m cs else none

/-- The written parts of a number. -/
structure Literal where
  negative : Bool
  whole : List Char
  fraction : Option (List Char)
  /-- The sign and the digits of the exponent. -/
  exponent : Option (Bool × List Char)
  deriving DecidableEq, Repr

/-- An integer literal whose digits fit: an integer where 64 bits hold it, else a double.  Minus
zero is a double, for the integers have no such number. -/
def ofInteger (negative : Bool) (n : Nat) : Number :=
  if negative then
    if n == 0 || Nat.pow 2 63 < n then .float (Binary64.ofNat n).negate else .int (-(n : Int))
  else .int n

/-- The value of a literal, nothing if it is too large for a double. -/
def ofLiteral (l : Literal) : Option Number :=
  let (n, scale, cut) := takeInteger 0 l.whole
  let (m, scale) := match l.fraction with
    | some ds => takeFraction n scale ds
    | none => (n, scale)
  match l.exponent with
  | none =>
    if cut || l.fraction.isSome then ofParts l.negative m scale else some (ofInteger l.negative n)
  | some (negativeExponent, ds) =>
    match exponentValue? 0 ds with
    | some e => ofParts l.negative m (if negativeExponent then scale - e else scale + e)
    | none =>
      if m == 0 || negativeExponent then
        some (.float (Binary64.zero l.negative))
      else none

/-- The number as an integer that fits into 64 bits with a sign. -/
def toSigned? : Number → Option Int
  | .int n => if n ≤ 9223372036854775807 then some n else none
  | .float _ => none

/-- The text of a number; what is no number in JSON is written as `null`. -/
def text : Number → String
  | .int n => toString n
  | .float (.finite s m e) => Binary64.finiteText s m e
  | .float _ => "null"

end Number

end Marketplace.Json
