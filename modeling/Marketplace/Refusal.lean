import Marketplace.Json.Value
set_option autoImplicit false

/-!
# Refusals

Why the marketplace does not do what it was asked for: a kind, which callers and the HTTP status
depend on, and a detail for the reader.
-/

namespace Marketplace

/-- The kinds of refusal. -/
inductive RefusalKind
  /-- What was asked for does not exist, or not for this account. -/
  | notFound
  /-- A document or a list could not be read. -/
  | unreadable
  /-- The account may not do this. -/
  | permissionDenied
  /-- The thing belongs to another account. -/
  | ownershipConflict
  /-- A value of the request is not acceptable. -/
  | invalidArguments
  /-- A rule of the stored data would be broken. -/
  | constraintViolation
  /-- The order cannot go from its status to the wanted one. -/
  | invalidTransition
  /-- The storage did not answer; trying again may help. -/
  | storage
  deriving DecidableEq, Repr

namespace RefusalKind

/-- The kinds in order. -/
def all : List RefusalKind :=
  [.notFound, .unreadable, .permissionDenied, .ownershipConflict, .invalidArguments,
    .constraintViolation, .invalidTransition, .storage]

/-- The code that clients see. -/
def code : RefusalKind → String
  | .notFound => "not_found"
  | .unreadable => "parse_error"
  | .permissionDenied => "permission_denied"
  | .ownershipConflict => "ownership_conflict"
  | .invalidArguments => "invalid_arguments"
  | .constraintViolation => "constraint_violation"
  | .invalidTransition => "invalid_transition"
  | .storage => "storage_error"

/-- The words in front of the detail. -/
def heading : RefusalKind → String
  | .notFound => "not found"
  | .unreadable => "parse error"
  | .permissionDenied => "permission denied"
  | .ownershipConflict => "ownership conflict"
  | .invalidArguments => "invalid arguments"
  | .constraintViolation => "constraint violation"
  | .invalidTransition => "invalid transition"
  | .storage => "storage error"

/-- The HTTP status of an answer that refuses. -/
def httpStatus : RefusalKind → Nat
  | .notFound => 404
  | .unreadable | .invalidArguments => 400
  | .permissionDenied => 403
  | .ownershipConflict | .constraintViolation | .invalidTransition => 409
  | .storage => 500

/-- Only a failing storage may be well again at the next try. -/
def isTransient (k : RefusalKind) : Bool := k == .storage

end RefusalKind

/-- A refusal with its detail. -/
structure Refusal where
  kind : RefusalKind
  detail : String
  deriving DecidableEq, Repr

namespace Refusal

/-- The whole sentence. -/
def message (r : Refusal) : String := r.kind.heading ++ ": " ++ r.detail

/-- Trying again may help. -/
def isTransient (r : Refusal) : Bool := r.kind.isTransient

/-- Nothing of this description exists. -/
def notFound (detail : String) : Refusal := ⟨.notFound, detail⟩

/-- A document could not be read. -/
def unreadable (detail : String) : Refusal := ⟨.unreadable, detail⟩

/-- The account may not do this. -/
def permissionDenied (detail : String) : Refusal := ⟨.permissionDenied, detail⟩

/-- The thing belongs to another account. -/
def ownershipConflict (detail : String) : Refusal := ⟨.ownershipConflict, detail⟩

/-- A value is not acceptable. -/
def invalidArguments (detail : String) : Refusal := ⟨.invalidArguments, detail⟩

/-- A rule of the stored data would be broken. -/
def constraint (detail : String) : Refusal := ⟨.constraintViolation, detail⟩

/-- The order cannot take this step. -/
def invalidTransition (detail : String) : Refusal := ⟨.invalidTransition, detail⟩

/-- The storage did not answer. -/
def storage (detail : String) : Refusal := ⟨.storage, detail⟩

/-- The body of an HTTP answer that refuses. -/
def toJson (r : Refusal) : Json.Value :=
  .object [("status", .bool false), ("error", .text r.kind.code), ("message", .text r.detail)]

end Refusal

end Marketplace
