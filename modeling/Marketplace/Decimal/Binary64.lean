set_option autoImplicit false

/-!
# Binary floating-point numbers

Doubles as exact values: a sign, a significand below `2 ^ 53` and a binary exponent.  Every rounding
is the one operation `Binary64.ofRatio`, which takes the nearest double to an exact ratio and, of
two equally near ones, the one with the even significand.
-/

namespace Marketplace

/-- A double.  A finite one is `± significand * 2 ^ exponent`. -/
inductive Binary64
  | finite (negative : Bool) (significand : Nat) (exponent : Int)
  | infinite (negative : Bool)
  | notANumber
  deriving DecidableEq, Repr

namespace Binary64

/-- The least exponent of a double. -/
def minExponent : Int := -1074

/-- The greatest exponent of a double. -/
def maxExponent : Int := 971

/-- Zero with a sign. -/
def zero (negative : Bool) : Binary64 := .finite negative 0 minExponent

/-- The quotient rounded to the nearest integer, a half going to the even neighbour. -/
def roundedQuotient (num den : Nat) : Nat :=
  let q := num / den
  let r := num % den
  if 2 * r < den then q
  else if den < 2 * r then q + 1
  else if q % 2 == 0 then q else q + 1

/-- The ratio `num * 2 ^ (-e) / den`, rounded. -/
def scaledQuotient (num den : Nat) (e : Int) : Nat :=
  if 0 ≤ e then roundedQuotient num (den * Nat.pow 2 e.toNat)
  else roundedQuotient (num * Nat.pow 2 (-e).toNat) den

/-- `2 ^ k` is at most `num / den`. -/
def powerAtMost (num den : Nat) (k : Int) : Bool :=
  if 0 ≤ k then den * Nat.pow 2 k.toNat ≤ num else den ≤ num * Nat.pow 2 (-k).toNat

/-- The greatest `k` with `2 ^ k ≤ num / den`, for positive numbers. -/
def floorLog2 (num den : Nat) : Int :=
  let k : Int := (num.log2 : Int) - (den.log2 : Int)
  if powerAtMost num den k then k else k - 1

/-- The double nearest to `± num / den`. -/
def ofRatio (negative : Bool) (num den : Nat) : Binary64 :=
  if num == 0 then zero negative
  else
    let e := max (floorLog2 num den - 52) minExponent
    let m := scaledQuotient num den e
    let (m, e) := if m == Nat.pow 2 53 then (Nat.pow 2 52, e + 1) else (m, e)
    if maxExponent < e then .infinite negative else .finite negative m e

/-- The double nearest to a natural number. -/
def ofNat (n : Nat) : Binary64 := ofRatio false n 1

/-- The double nearest to `± digits * 10 ^ exponent`, where `digits` has `count` digits.  The two
bounds keep the powers of ten small: beyond them the result is infinite or zero. -/
def ofDecimal (negative : Bool) (digits count : Nat) (exponent : Int) : Binary64 :=
  if digits == 0 then zero negative
  else if 400 < exponent + count then .infinite negative
  else if exponent + count < -400 then zero negative
  else if 0 ≤ exponent then ofRatio negative (digits * Nat.pow 10 exponent.toNat) 1
  else ofRatio negative digits (Nat.pow 10 (-exponent).toNat)

/-- The magnitude of a finite double as a ratio. -/
def ratio (m : Nat) (e : Int) : Nat × Nat :=
  if 0 ≤ e then (m * Nat.pow 2 e.toNat, 1) else (m, Nat.pow 2 (-e).toNat)

/-- The product of a finite double and a power of ten, both rounded. -/
def timesPowerOfTen (x : Binary64) (k : Nat) : Binary64 :=
  match x, ofNat (Nat.pow 10 k) with
  | .finite s m e, .finite _ m' e' =>
    let (n, d) := ratio m e
    let (n', d') := ratio m' e'
    ofRatio s (n * n') (d * d')
  | .finite s _ _, _ => .infinite s
  | x, _ => x

/-- The quotient of a finite double and a power of ten, both rounded. -/
def overPowerOfTen (x : Binary64) (k : Nat) : Binary64 :=
  match x, ofNat (Nat.pow 10 k) with
  | .finite s m e, .finite _ m' e' =>
    let (n, d) := ratio m e
    let (n', d') := ratio m' e'
    ofRatio s (n * d') (d * n')
  | .finite s _ _, _ => zero s
  | x, _ => x

/-- The rounded sum of the magnitudes of two doubles. -/
def plus : Binary64 → Binary64 → Binary64
  | .finite _ m e, .finite _ m' e' =>
    let (n, d) := ratio m e
    let (n', d') := ratio m' e'
    ofRatio false (n * d' + n' * d) (d * d')
  | .notANumber, _ | _, .notANumber => .notANumber
  | _, _ => .infinite false

/-- The double with the other sign. -/
def negate : Binary64 → Binary64
  | .finite s m e => .finite (!s) m e
  | .infinite s => .infinite (!s)
  | .notANumber => .notANumber

/-- The double is zero, of either sign. -/
def isZero : Binary64 → Bool
  | .finite _ m _ => m == 0
  | _ => false

/-- The double is infinite. -/
def isInfinite : Binary64 → Bool
  | .infinite _ => true
  | _ => false

end Binary64

end Marketplace
