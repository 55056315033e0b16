set_option autoImplicit false

/-!
# Characters in bytes

Reading UTF-8.  A faulty sequence is as long as the longest part of it that could begin a character,
and one byte at least; the lenient reading puts one replacement character in its place.
-/

namespace Marketplace.Text

/-- The bits that a first byte carries, and the ranges of the bytes that have to follow it. -/
def leadByte? (b : Nat) : Option (Nat × List (Nat × Nat)) :=
  let any := (0x80, 0xBF)
  if b < 0x80 then some (b, [])
  else if b < 0xC2 then none
  else if b < 0xE0 then some (b - 0xC0, [any])
  else if b = 0xE0 then some (0, [(0xA0, 0xBF), any])
  else if b = 0xED then some (0xD, [(0x80, 0x9F), any])
  else if b < 0xF0 then some (b - 0xE0, [any, any])
  else if b = 0xF0 then some (0, [(0x90, 0xBF), any, any])
  else if b < 0xF4 then some (b - 0xF0, [any, any, any])
  else if b = 0xF4 then some (4, [(0x80, 0x8F), any, any])
  else none

/-- Extends the number of a character by the bytes that have to follow, and gives the bytes that are
left; there is no number if one of them is missing. -/
def followBytes (n : Nat) : List (Nat × Nat) → List UInt8 → Option Nat × List UInt8
  | [], bs => (some n, bs)
  | _ :: _, [] => (none, [])
  | r :: rs, b :: bs =>
    if r.1 ≤ b.toNat && b.toNat ≤ r.2 then followBytes (64 * n + (b.toNat - 0x80)) rs bs
    else (none, b :: bs)

/-- The characters in bytes, with nothing for each faulty sequence; the fuel bounds their number. -/
def readUtf8 : Nat → List UInt8 → List (Option Char)
  | 0, _ | _, [] => []
  | fuel + 1, b :: bs =>
    match leadByte? b.toNat with
    | none => none :: readUtf8 fuel bs
    | some (n, ranges) =>
      let (c, rest) := followBytes n ranges bs
      c.map Char.ofNat :: readUtf8 fuel rest

/-- The text of bytes, if they are faultless. -/
def ofUtf8? (bs : List UInt8) : Option String :=
  ((readUtf8 bs.length bs).mapM fun c => c).map String.ofList

/-- The text of bytes, with replacement characters where they are faulty. -/
def ofUtf8Lenient (bs : List UInt8) : String :=
  String.ofList ((readUtf8 bs.length bs).map fun c => c.getD '\ufffd')

end Marketplace.Text
