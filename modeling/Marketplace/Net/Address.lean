import Marketplace.Text.Reader
set_option autoImplicit false

/-!
# Network addresses

Addresses of version 4 and 6 with a port, their written forms and the reading of these.  A written
address of version 6 leaves out the longest run of zero groups, the first of several, if it has two
groups at least; one that embeds an address of version 4 shows it.
-/

namespace Marketplace

/-- An address of version 4. -/
structure Ipv4 where
  a : Nat
  b : Nat
  c : Nat
  d : Nat
  deriving DecidableEq, Repr

/-- An address of version 6, in eight groups of sixteen bits. -/
structure Ipv6 where
  groups : List Nat
  length_eq : groups.length = 8
  deriving DecidableEq, Repr

/-- An address with a port. -/
inductive SocketAddress
  | v4 (ip : Ipv4) (port : Nat)
  /-- The zone tells apart networks with the same addresses; zero is none. -/
  | v6 (ip : Ipv6) (zone : Nat) (port : Nat)
  deriving DecidableEq, Repr

namespace Ipv4

/-- The written form. -/
def text (ip : Ipv4) : String := s!"{ip.a}.{ip.b}.{ip.c}.{ip.d}"

/-- The address as two groups. -/
def groups (ip : Ipv4) : List Nat := [256 * ip.a + ip.b, 256 * ip.c + ip.d]

/-- The address in two groups. -/
def ofGroups (g h : Nat) : Ipv4 := ⟨g / 256, g % 256, h / 256, h % 256⟩

end Ipv4

namespace Ipv6

/-- The groups between two ends are zero; there must be room for the ends. -/
def ofEnds? (head tail : List Nat) : Option Ipv6 :=
  let groups := head ++ List.replicate (8 - head.length - tail.length) 0 ++ tail
  if h : groups.length = 8 then some ⟨groups, h⟩ else none

/-- The digits of a group. -/
def groupText (g : Nat) : String := String.ofList (Nat.toDigits 16 g)

/-- Groups with colons between them. -/
def groupsText (gs : List Nat) : String := ":".intercalate (gs.map groupText)

/-- A run of zeros in a list: where it begins and how long it is. -/
structure ZeroRun where
  start : Nat
  length : Nat
  deriving DecidableEq, Repr

/-- The zeros at the head of a list. -/
def zerosAhead (gs : List Nat) : Nat := (gs.takeWhile (· == 0)).length

/-- The longest run of zeros from a place on, the first of several. -/
def longestZeros (start : Nat) : List Nat → ZeroRun
  | [] => ⟨start, 0⟩
  | g :: gs =>
    let here := zerosAhead (g :: gs)
    let later := longestZeros (start + 1) gs
    if later.length ≤ here then ⟨start, here⟩ else later

/-- The written form. -/
def text (ip : Ipv6) : String :=
  match ip.groups with
  | [0, 0, 0, 0, 0, 0xFFFF, g, h] => "::ffff:" ++ (Ipv4.ofGroups g h).text
  | gs =>
    let run := longestZeros 0 gs
    if run.length ≤ 1 then groupsText gs
    else groupsText (gs.take run.start) ++ "::" ++ groupsText (gs.drop (run.start + run.length))

end Ipv6

namespace SocketAddress

/-- The written form. -/
def text : SocketAddress → String
  | .v4 ip port => s!"{ip.text}:{port}"
  | .v6 ip 0 port => s!"[{ip.text}]:{port}"
  | .v6 ip zone port => s!"[{ip.text}%{zone}]:{port}"

end SocketAddress

/-! ## Reading -/

namespace Net

open Text (Reader)

/-- The value of a digit, decimal or hexadecimal. -/
def digitValue (c : Char) : Nat :=
  if c.isDigit then c.toNat - '0'.toNat
  else if c.isLower then c.toNat - 'a'.toNat + 10
  else c.toNat - 'A'.toNat + 10

/-- The character is a digit of the base. -/
def isDigitOf (base : Nat) (c : Char) : Bool := c.isAlphanum && digitValue c < base

/-- A number below a bound; it may have a greatest number of digits, and zeros in front of it. -/
def number (base bound : Nat) (digits? : Option Nat) (padded : Bool) : Reader Nat := do
  let ds ← Reader.takeWhile1 (isDigitOf base)
  let n := ds.foldl (fun n c => base * n + digitValue c) 0
  if digits?.any (· < ds.length) then failure
  else if !padded && ds.length > 1 && ds.head? == some '0' then failure
  else if n < bound then return n
  else failure

/-- One of the four parts of an address of version 4. -/
def octet : Reader Nat := number 10 256 (some 3) false

/-- An address of version 4. -/
def ipv4 : Reader Ipv4 := do
  let a ← octet
  Reader.exactly '.'
  let b ← octet
  Reader.exactly '.'
  let c ← octet
  Reader.exactly '.'
  let d ← octet
  return ⟨a, b, c, d⟩

/-- The colon before a group that is not the first. -/
def separator (first : Bool) : Reader Unit := if first then pure () else Reader.exactly ':'

/-- As many groups as stand there and have room, and whether they end with an address of
version 4, which takes the room of two. -/
def groups (first : Bool) : Nat → Reader (List Nat × Bool)
  | 0 => pure ([], false)
  | room + 1 =>
    (do
      guard (0 < room)
      separator first
      let ip ← ipv4
      pure (ip.groups, true)) <|>
    (do
      separator first
      let g ← number 16 65536 (some 4) true
      let (gs, embedded) ← groups false room
      pure (g :: gs, embedded)) <|>
    pure ([], false)

/-- The groups of an address of version 6; `::` stands for one zero group at least. -/
def ipv6 : Reader Ipv6 := do
  let (head, embedded) ← groups true 8
  if head.length == 8 then liftM (Ipv6.ofEnds? head [])
  else if embedded then failure
  else
    Reader.exactly ':'
    Reader.exactly ':'
    let (tail, _) ← groups true (7 - head.length)
    liftM (Ipv6.ofEnds? head tail)

/-- A colon and a port. -/
def port : Reader Nat := do
  Reader.exactly ':'
  number 10 65536 none true

/-- A percent sign and a zone. -/
def zone : Reader Nat := do
  Reader.exactly '%'
  number 10 (Nat.pow 2 32) none true

/-- An address with a port. -/
def socketAddress : Reader SocketAddress :=
  (do return .v4 (← ipv4) (← port)) <|>
  (do
    Reader.exactly '['
    let ip ← ipv6
    let zone ← zone <|> pure 0
    Reader.exactly ']'
    return .v6 ip zone (← port))

end Net

/-- Reads the written form of an address with a port. -/
def SocketAddress.parse? (s : String) : Option SocketAddress := Net.socketAddress.readAll? s

end Marketplace
