import Marketplace.Json.Value
set_option autoImplicit false

/-!
# Mail

Messages, and an outbox that keeps what is sent and can be told to fail for some addresses.
-/

namespace Marketplace

/-- A message to one address. -/
structure Mail where
  recipient : String
  subject : String
  body : String
  deriving DecidableEq, Repr

/-- The JSON form. -/
def Mail.toJson (m : Mail) : Json.Value :=
  .object [("to", .text m.recipient), ("subject", .text m.subject), ("body", .text m.body)]

/-- Why a message was not sent. -/
inductive MailFault
  | invalidAddress (address : String)
  | transport (detail : String)
  deriving DecidableEq, Repr

/-- The fault in words. -/
def MailFault.message : MailFault → String
  | .invalidAddress address => s!"invalid email address: {address}"
  | .transport detail => s!"transport error: {detail}"

/-- The messages sent so far, in order, and the addresses that cannot be reached. -/
structure Outbox where
  sent : List Mail
  unreachable : List String
  /-- Nobody can be reached. -/
  closed : Bool
  deriving DecidableEq, Repr

namespace Outbox

/-- Nothing sent, and everybody can be reached. -/
def empty : Outbox := ⟨[], [], false⟩

/-- Sends a message. -/
def send (b : Outbox) (m : Mail) : Except MailFault Unit × Outbox :=
  if b.closed || b.unreachable.contains m.recipient then
    (.error (.transport s!"{m.recipient} unreachable"), b)
  else (.ok (), { b with sent := b.sent ++ [m] })

/-- From now on the address cannot be reached. -/
def failFor (b : Outbox) (address : String) : Outbox :=
  { b with unreachable := address :: b.unreachable }

/-- From now on everybody can be reached. -/
def heal (b : Outbox) : Outbox := { b with unreachable := [] }

end Outbox

end Marketplace
