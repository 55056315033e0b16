import Marketplace.Text.Utf8
set_option autoImplicit false

/-!
# Texts in URLs

Bytes that cannot stand in a URL are written as `%` and two hexadecimal digits; a `%` without them
stands for itself.  The segments of a path must be sound UTF-8; a query is a list of names and
values, in which `+` is a space and faulty bytes are replaced.
-/

namespace Marketplace.Http

/-- The value of a hexadecimal digit. -/
def hexValue? (b : UInt8) : Option UInt8 :=
  if 48 ≤ b && b ≤ 57 then some (b - 48)
  else if 65 ≤ b && b ≤ 70 then some (b - 55)
  else if 97 ≤ b && b ≤ 102 then some (b - 87)
  else none

/-- Resolves `%` and two digits. -/
def percentDecode : List UInt8 → List UInt8
  | 37 :: h :: l :: rest =>
    match hexValue? h, hexValue? l with
    | some a, some b => (16 * a + b) :: percentDecode rest
    | _, _ => 37 :: percentDecode (h :: l :: rest)
  | b :: rest => b :: percentDecode rest
  | [] => []

/-- The text of a path segment, if it is sound. -/
def segmentText? (s : String) : Option String :=
  Text.ofUtf8? (percentDecode s.toUTF8.toList)

/-- The text of a name or a value in a query. -/
def queryText (bs : List UInt8) : String :=
  Text.ofUtf8Lenient (percentDecode (bs.map fun b => if b = 43 then 32 else b))

/-- A name and a value, which is empty without an equals sign. -/
def queryPair (bs : List UInt8) : String × String :=
  (queryText (bs.takeWhile (· != 61)), queryText ((bs.dropWhile (· != 61)).drop 1))

/-- The names and values of a query in order. -/
def queryPairs (s : String) : List (String × String) :=
  ((s.toUTF8.toList.splitOn 38).filter fun bs => !bs.isEmpty).map queryPair

end Marketplace.Http
