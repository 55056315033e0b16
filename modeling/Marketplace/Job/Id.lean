import Marketplace.Json.Decoder
import Marketplace.Text.Blank
import Marketplace.Text.Lowercase
set_option autoImplicit false

/-!
# Identifiers of jobs

A job is known by a number of 128 bits, written as a UUID.  New identifiers carry the time of their
making in front, so later ones are greater.
-/

namespace Marketplace

/-- The identifier of a job. -/
structure JobId where
  value : BitVec 128
  deriving DecidableEq, Repr

namespace JobId

/-- The identifier of a number, of which only the last 128 bits count. -/
def ofNat (n : Nat) : JobId := ⟨BitVec.ofNat 128 n⟩

/-- The number of the identifier. -/
def toNat (i : JobId) : Nat := i.value.toNat

/-- Smaller identifiers come first. -/
def le (i j : JobId) : Bool := i.toNat ≤ j.toNat

/-- An identifier of version 7: 48 bits of milliseconds since 1970, and 74 bits of a count that
tells the identifiers of one millisecond apart, with the marks of the version before the first
twelve of them and of the variant before the others. -/
def ofClock (millis count : Nat) : JobId :=
  ⟨BitVec.ofNat 48 millis ++ 7#4 ++ BitVec.ofNat 12 (count / Nat.pow 2 62) ++ 2#2 ++
    BitVec.ofNat 62 count⟩

/-- The version that the identifier names. -/
def version (i : JobId) : Nat := (i.value.extractLsb' 76 4).toNat

/-- The hexadecimal digit of a number below 16. -/
def hexDigit (n : Nat) : Char :=
  if n < 10 then Char.ofNat ('0'.toNat + n) else Char.ofNat ('a'.toNat + n - 10)

/-- The last `count` hexadecimal digits of a number. -/
def hexDigits : Nat → Nat → List Char
  | 0, _ => []
  | count + 1, n => hexDigits count (n / 16) ++ [hexDigit (n % 16)]

/-- The lengths of the groups of digits. -/
def groups : List Nat := [8, 4, 4, 4, 12]

/-- Puts hyphens between the groups of digits. -/
def hyphenate : List Nat → List Char → List Char
  | [], cs => cs
  | [_], cs => cs
  | n :: ns, cs => cs.take n ++ '-' :: hyphenate ns (cs.drop n)

/-- The groups of a text with hyphens between them, joined. -/
def joinGroups : List Nat → List Char → Option (List Char)
  | [], cs => if cs.isEmpty then some [] else none
  | [n], cs => if cs.length == n then some cs else none
  | n :: ns, cs =>
    match cs.drop n with
    | '-' :: rest => (joinGroups ns rest).map (cs.take n ++ ·)
    | _ => none

/-- The text in lower case, with hyphens. -/
def text (i : JobId) : String := String.ofList (hyphenate groups (hexDigits 32 i.toNat))

instance : ToString JobId := ⟨text⟩

/-- The value of a hexadecimal digit. -/
def hexValue? (c : Char) : Option Nat :=
  if c.isDigit then some (c.toNat - '0'.toNat)
  else if 'a' ≤ c && c ≤ 'f' then some (c.toNat - 'a'.toNat + 10)
  else if 'A' ≤ c && c ≤ 'F' then some (c.toNat - 'A'.toNat + 10)
  else none

/-- The number of 32 hexadecimal digits. -/
def ofDigits? (cs : List Char) : Option JobId :=
  if cs.length == 32 then
    (cs.mapM hexValue?).map fun ds => ofNat (ds.foldl (fun n d => n * 16 + d) 0)
  else none

/-- The word in front of a UUID that is written as a name. -/
def urn : List Char := "urn:uuid:".toList

/-- The digits of one of the written forms: digits alone, with hyphens, and with hyphens in braces
or after `urn:uuid:`. -/
def digitsOf? (cs : List Char) : Option (List Char) :=
  if cs.length == 32 then some cs
  else if cs.length == 38 then
    if cs.head? == some '\x7b' && cs.getLast? == some '\x7d' then
      joinGroups groups (cs.drop 1).dropLast
    else none
  else if cs.length == 45 then
    if (cs.take urn.length).map Char.toLower == urn then joinGroups groups (cs.drop urn.length)
    else none
  else joinGroups groups cs

/-- Reads one of the written forms. -/
def ofText? (s : String) : Option JobId := (digitsOf? s.toList).bind ofDigits?

/-- Reads one of the written forms with blanks around it. -/
def parse? (s : String) : Option JobId := ofText? (Text.trim s)

/-- The JSON form. -/
def toJson (i : JobId) : Json.Value := .text i.text

/-- Reads the JSON form. -/
def decoder : Json.Decoder JobId := .filterMap ofText? .text

end JobId

end Marketplace
