set_option autoImplicit false

/-!
# Base64 for URLs

The alphabet with `-` and `_`, without padding.  Reading accepts exactly what writing produces: no
other characters, no padding, and no bits set beyond the last byte.
-/

namespace Marketplace.Base64Url

/-- The character of six bits. -/
def encodeSextet (n : Nat) : Char :=
  if n < 26 then Char.ofNat ('A'.toNat + n)
  else if n < 52 then Char.ofNat ('a'.toNat + (n - 26))
  else if n < 62 then Char.ofNat ('0'.toNat + (n - 52))
  else if n == 62 then '-'
  else '_'

/-- The six bits of a character. -/
def decodeSextet? (c : Char) : Option Nat :=
  if 'A' ≤ c && c ≤ 'Z' then some (c.toNat - 'A'.toNat)
  else if 'a' ≤ c && c ≤ 'z' then some (c.toNat - 'a'.toNat + 26)
  else if '0' ≤ c && c ≤ '9' then some (c.toNat - '0'.toNat + 52)
  else if c == '-' then some 62
  else if c == '_' then some 63
  else none

/-- The text of bytes. -/
def encode : List UInt8 → List Char
  | a :: b :: c :: rest =>
    let n := (a.toNat * 256 + b.toNat) * 256 + c.toNat
    encodeSextet (n / 262144) :: encodeSextet (n / 4096 % 64) :: encodeSextet (n / 64 % 64) ::
      encodeSextet (n % 64) :: encode rest
  | [a, b] =>
    let n := (a.toNat * 256 + b.toNat) * 4
    [encodeSextet (n / 4096), encodeSextet (n / 64 % 64), encodeSextet (n % 64)]
  | [a] =>
    let n := a.toNat * 16
    [encodeSextet (n / 64), encodeSextet (n % 64)]
  | [] => []

/-- The bytes of a text. -/
def decode : List Char → Option (List UInt8)
  | a :: b :: c :: d :: rest => do
    let a ← decodeSextet? a
    let b ← decodeSextet? b
    let c ← decodeSextet? c
    let d ← decodeSextet? d
    let n := ((a * 64 + b) * 64 + c) * 64 + d
    let bytes ← decode rest
    some (UInt8.ofNat (n / 65536) :: UInt8.ofNat (n / 256 % 256) :: UInt8.ofNat (n % 256) :: bytes)
  | [a, b, c] => do
    let a ← decodeSextet? a
    let b ← decodeSextet? b
    let c ← decodeSextet? c
    let n := (a * 64 + b) * 64 + c
    if n % 4 == 0 then some [UInt8.ofNat (n / 1024), UInt8.ofNat (n / 4 % 256)] else none
  | [a, b] => do
    let a ← decodeSextet? a
    let b ← decodeSextet? b
    let n := a * 64 + b
    if n % 16 == 0 then some [UInt8.ofNat (n / 16)] else none
  | [_] => none
  | [] => some []

end Marketplace.Base64Url
