import Marketplace.Program.Basic
set_option autoImplicit false

/-!
# Services

A service is a program that answers or refuses.  This module makes the calls of the storage and of
jobs available to services, with their faults as refusals.
-/

namespace Marketplace

/-- A program that answers or refuses. -/
abbrev Service (α : Type) := ExceptT Refusal Program α

namespace Service

variable {α : Type}

/-- A call that cannot fail. -/
def ask (c : Call) : Service c.Reply := ExceptT.lift (Program.ask c)

/-- Calls the storage. -/
def store (c : StoreCall) : Service c.Result :=
  ExceptT.mk ((Program.ask (.store c)).bind fun r => .done (r.mapError StorageFault.refusal))

/-- Calls the storage about the catalog. -/
def catalog (c : CatalogCall) : Service c.Result := store (.catalog c)

/-- Calls the storage about orders. -/
def orders (c : OrderCall) : Service c.Result := store (.orders c)

/-- Calls the storage about contacts. -/
def contacts (c : ContactCall) : Service c.Result := store (.contacts c)

/-- The account of an identifier, if it has been seen. -/
def account (id : UserId) : Service (Option Account) := ExceptT.mk (Program.ask (.account id))

/-- Keeps what an account is like now. -/
def remember (a : Account) : Service Unit := ExceptT.mk (Program.ask (.remember a))

/-- Refuses. -/
def refuse (r : Refusal) : Service α := throw r

/-- What has been decided already. -/
def ofExcept : Except Refusal α → Service α
  | .ok a => pure a
  | .error r => throw r

/-- The value, or a refusal where there is none. -/
def orRefuse (r : Refusal) : Option α → Service α
  | some a => pure a
  | none => throw r

/-- Works on the orders of a buyer while nobody else does; the lock is given back whatever
happens. -/
def locked (buyer : UserId) (x : Service α) : Service α :=
  ExceptT.mk do
    Program.ask (.lock buyer)
    let r ← x.run
    Program.ask (.unlock buyer)
    pure r

end Service

end Marketplace
