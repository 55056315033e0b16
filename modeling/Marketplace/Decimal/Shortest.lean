import Marketplace.Decimal.Binary64
set_option autoImplicit false

/-!
# The shortest decimal text of a double

The fewest decimal digits that read back as the same double, and of several texts of that length
the nearest.  The digits are found on exact integers: the reals that round to a double form an
interval, and a decimal grid has a point in it exactly when one of the two grid points next to the
double lies in it.
-/

namespace Marketplace.Binary64

/-- The interval of reals that round to a double, as integers over one common denominator, with
the double itself. -/
structure Neighbourhood where
  value : Nat
  low : Nat
  high : Nat
  denominator : Nat
  /-- The ends belong to the interval. -/
  closed : Bool
  deriving DecidableEq, Repr

/-- The interval around `m * 2 ^ e`.  Below a power of two the spacing is half as wide. -/
def neighbourhood (m : Nat) (e : Int) : Neighbourhood :=
  let below := if m == Nat.pow 2 52 && minExponent < e then 1 else 2
  let (scale, den) := if 2 ≤ e then (Nat.pow 2 (e - 2).toNat, 1) else (1, Nat.pow 2 (2 - e).toNat)
  ⟨4 * m * scale, (4 * m - below) * scale, (4 * m + 2) * scale, den, m % 2 == 0⟩

/-- The point `n * num / den` lies in the interval. -/
def Neighbourhood.contains (h : Neighbourhood) (n num den : Nat) : Bool :=
  let x := n * num * h.denominator
  let low := h.low * den
  let high := h.high * den
  if h.closed then low ≤ x && x ≤ high else low < x && x < high

/-- Ten to an integer power, as a ratio. -/
def tenRatio (k : Int) : Nat × Nat :=
  if 0 ≤ k then (Nat.pow 10 k.toNat, 1) else (1, Nat.pow 10 (-k).toNat)

/-- The better of the two points of the grid of spacing `10 ^ k` next to the double, if one of
them reads back as it. -/
def Neighbourhood.gridPoint? (h : Neighbourhood) (k : Int) : Option Nat :=
  let (num, den) := tenRatio k
  let unit := num * h.denominator
  let n := h.value * den / unit
  let rest := 2 * (h.value * den % unit)
  let nearer := if rest < unit || (rest == unit && n % 2 == 0) then n else n + 1
  let other := if nearer == n then n + 1 else n
  if h.contains nearer num den then some nearer
  else if h.contains other num den then some other
  else none

/-- The number of decimal digits of a natural number. -/
def digitCount (n : Nat) : Nat := (Nat.toDigits 10 n).length

/-- The exponent `k` with `10 ^ (k - 1) ≤ value < 10 ^ k`, for a positive ratio. -/
def decimalMagnitude (num den : Nat) : Int :=
  let guess : Int := (digitCount num : Int) - (digitCount den : Int)
  let (a, b) := tenRatio guess
  if den * a ≤ num * b then guess + 1 else guess

/-- Tries grids from coarse to fine, at most `fuel` of them. -/
def finestNeeded (h : Neighbourhood) (k : Int) : Nat → Nat × Int
  | 0 => (0, k)
  | fuel + 1 =>
    match h.gridPoint? k with
    | some n => (n, k)
    | none => finestNeeded h (k - 1) fuel

/-- Drops trailing zeros of the digits, raising the exponent for each. -/
def stripZeros (n : Nat) (k : Int) : Nat → Nat × Int
  | 0 => (n, k)
  | fuel + 1 => if n != 0 && n % 10 == 0 then stripZeros (n / 10) (k + 1) fuel else (n, k)

/-- The shortest digits of a positive double and their exponent: `digits * 10 ^ exponent`. -/
def shortest (m : Nat) (e : Int) : Nat × Int :=
  let h := neighbourhood m e
  let (n, k) := finestNeeded h (decimalMagnitude h.value h.denominator - 1) 18
  stripZeros n k 20

/-- Writes digits with the point after `point` of them: a fraction always shows, and numbers of
more than sixteen integer digits or more than five zeros after the point take an exponent. -/
def layout (digits : List Char) (exponent : Int) : List Char :=
  let count : Int := digits.length
  let point := count + exponent
  if 0 ≤ exponent && point ≤ 16 then
    digits ++ List.replicate exponent.toNat '0' ++ ['.', '0']
  else if 0 < point && point ≤ 16 then
    digits.take point.toNat ++ '.' :: digits.drop point.toNat
  else if -5 < point && point ≤ 0 then
    '0' :: '.' :: List.replicate (-point).toNat '0' ++ digits
  else
    let tail := 'e' :: (toString (point - 1)).toList
    match digits with
    | [d] => d :: tail
    | d :: ds => d :: '.' :: ds ++ tail
    | [] => tail

/-- Writes digits without an exponent, and without a fraction where there is none. -/
def plainLayout (digits : List Char) (exponent : Int) : List Char :=
  let point : Int := digits.length + exponent
  if 0 ≤ exponent then digits ++ List.replicate exponent.toNat '0'
  else if 0 < point then digits.take point.toNat ++ '.' :: digits.drop point.toNat
  else '0' :: '.' :: List.replicate (-point).toNat '0' ++ digits

/-- The magnitude of a double without an exponent. -/
def plainText : Binary64 → String
  | .finite _ m e =>
    if m == 0 then "0"
    else
      let (n, k) := shortest m e
      String.ofList (plainLayout (Nat.toDigits 10 n) k)
  | .infinite _ => "inf"
  | .notANumber => "NaN"

/-- The text of a finite double. -/
def finiteText (negative : Bool) (m : Nat) (e : Int) : String :=
  let sign := if negative then ['-'] else []
  if m == 0 then String.ofList (sign ++ ['0', '.', '0'])
  else
    let (n, k) := shortest m e
    String.ofList (sign ++ layout (Nat.toDigits 10 n) k)

end Marketplace.Binary64
