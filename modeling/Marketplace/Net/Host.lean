import Marketplace.Net.Address
set_option autoImplicit false

/-!
# A host without a network

The host that the server runs on here has no network but itself.  It can listen on its own
addresses, at ports that are not reserved; nothing can be sent from one of them to another.
-/

namespace Marketplace.Net

/-- The ports below this one are reserved; zero asks for any port. -/
def firstFreePort : Nat := 1024

/-- The address belongs to the host, or stands for all that do. -/
def isOwn : SocketAddress → Bool
  | .v4 ip _ => ip.a == 127 || ip == ⟨0, 0, 0, 0⟩
  | .v6 ip _ _ => ip.groups.take 7 == [0, 0, 0, 0, 0, 0, 0] && ip.groups.getLastD 2 ≤ 1

/-- The port of an address. -/
def portOf : SocketAddress → Nat
  | .v4 _ port | .v6 _ _ port => port

/-- Why the host cannot listen on an address, if it cannot. -/
def bindFault? (a : SocketAddress) : Option String :=
  if 0 < portOf a && portOf a < firstFreePort then some "Permission denied (os error 13)"
  else if isOwn a then none
  else some "Cannot assign requested address (os error 99)"

/-- Why nothing can be sent. -/
def sendFault : String := "Network is unreachable (os error 101)"

end Marketplace.Net
