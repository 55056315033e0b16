import Marketplace.Refusal
set_option autoImplicit false

/-!
# Faults of the storage

What the storage answers when it does not do what it was asked for: a constraint on the stored
rows, with its name, or a failure of its own.
-/

namespace Marketplace

/-- Why the storage does not do what it was asked for. -/
inductive StorageFault
  /-- Two rows would have what only one may have. -/
  | unique (name : String)
  /-- A row would refer to one that does not exist. -/
  | foreignKey (name : String)
  /-- A row would break a rule for its values. -/
  | check (name : String)
  /-- The storage itself fails. -/
  | backend (detail : String)
  deriving DecidableEq, Repr

namespace StorageFault

/-- The name of the kind of fault. -/
def label : StorageFault → String
  | .unique _ => "unique"
  | .foreignKey _ => "foreign_key"
  | .check _ => "check"
  | .backend _ => "backend"

/-- The fault of a kind, with a name or a detail. -/
def ofLabel? (label text : String) : Option StorageFault :=
  [unique text, foreignKey text, check text, backend text].find? fun f => f.label == label

/-- The fault in words. -/
def message : StorageFault → String
  | .unique name => s!"unique constraint '{name}' violated"
  | .foreignKey name => s!"foreign key '{name}' violated"
  | .check name => s!"check constraint '{name}' violated"
  | .backend detail => s!"backend error: {detail}"

/-- The refusal that comes of the fault. -/
def refusal (f : StorageFault) : Refusal :=
  match f with
  | .backend detail => .storage detail
  | f => .constraint f.message

/-- The constraint that every shop has a name of its own. -/
def shopName : String := "shops_name_key"

/-- The constraint that every account has one shop at most. -/
def shopOwner : String := "shops_owner_id_key"

end StorageFault

end Marketplace
