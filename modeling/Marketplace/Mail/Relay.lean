import Marketplace.Mail.Basic
import Marketplace.Mail.Mailbox
set_option autoImplicit false

/-!
# Mail relays

Mail goes out through a relay under one sender.  A message is made up before it is handed over, and
an address that cannot be read stops it there.
-/

namespace Marketplace

/-- Where mail is handed over, and under which sender. -/
structure RelaySettings where
  host : String
  port : Nat
  username : Option String
  password : Option String
  sender : String
  deriving DecidableEq, Repr

/-- The sender and the recipient of a message. -/
structure Envelope where
  sender : Mailbox
  recipient : Mailbox
  deriving DecidableEq, Repr

namespace RelaySettings

/-- The JSON form. -/
def toJson (r : RelaySettings) : Json.Value :=
  .object [("host", .text r.host), ("port", .nat r.port),
    ("username", .ofOption .text r.username), ("password", .ofOption .text r.password),
    ("from", .text r.sender)]

/-- Reads an address. -/
def mailbox (address : String) : Except MailFault Mailbox :=
  match Mailbox.parse? address with
  | some m => .ok m
  | none => .error (.invalidAddress address)

/-- The envelope of a message; the sender is read first. -/
def envelope (r : RelaySettings) (m : Mail) : Except MailFault Envelope := do
  let sender ← mailbox r.sender
  let recipient ← mailbox m.recipient
  return ⟨sender, recipient⟩

end RelaySettings

end Marketplace
