import Marketplace.Json.Value
import Marketplace.Text.Integer
set_option autoImplicit false

/-!
# Decoding JSON into typed values

A decoder takes a value of its type from the head of a token list.  It reads strictly from left to
right, so of two faults of a text the one that stands first is reported: a token that cannot stand
where it does is `Fault.malformed`, a sound value of another shape is `Fault.mismatch`.

A record is read from an object, where unknown members are skipped and a known one may stand once,
or from an array of its members in order.  `Value.tokens` makes every decoder a decoder of trees
too, which is how a value is read twice when its shape decides how to read it.
-/

namespace Marketplace.Json

/-- Why a text is not a value of the wanted type. -/
inductive Fault
  /-- The text is no JSON, ends too early or nests too deeply. -/
  | malformed
  /-- The text holds a value of another shape. -/
  | mismatch
  /-- A value of the right shape breaks a rule of its own, which the reason names. -/
  | objection (reason : String)
  deriving DecidableEq, Repr

/-- The fault in words. -/
def Fault.message : Fault → String
  | .malformed => "the text is not well formed"
  | .mismatch => "a value has another shape than expected"
  | .objection reason => reason

/-- Takes a value from the head of a token list; the number bounds how deeply it may nest. -/
abbrev Decoder (α : Type) := Nat → List Token → Except Fault (α × List Token)

/-- The deepest nesting of a text. -/
def maxDepth : Nat := 127

/-- The fault of a token where a value of another kind is wanted. -/
def Token.fault : Token → Fault
  | .openArray | .openObject | .null | .bool _ | .number (some _) | .text (some _) => .mismatch
  | _ => .malformed

namespace Decoder

variable {α β : Type}

/-- Refuses what stands at the head. -/
def refuse : List Token → Except Fault α
  | [] => .error .malformed
  | t :: _ => .error t.fault

/-- A scalar that `f` accepts. -/
def scalar (f : Token → Option α) : Decoder α := fun _ ts =>
  match ts with
  | [] => .error .malformed
  | t :: rest =>
    match f t with
    | some a => .ok (a, rest)
    | none => .error t.fault

/-- Applies a function to what is read. -/
def map (f : α → β) (d : Decoder α) : Decoder β := fun depth ts =>
  (d depth ts).map fun r => (f r.1, r.2)

/-- Refuses what is read where the function has no result. -/
def filterMap (f : α → Option β) (d : Decoder α) : Decoder β := fun depth ts =>
  match d depth ts with
  | .ok (a, rest) =>
    match f a with
    | some b => .ok (b, rest)
    | none => .error .mismatch
  | .error e => .error e

/-- A text. -/
def text : Decoder String := scalar fun
  | .text s => s
  | _ => none

/-- A truth value. -/
def bool : Decoder Bool := scalar fun
  | .bool b => some b
  | _ => none

/-- The value `null`. -/
def null : Decoder Unit := scalar fun
  | .null => some ()
  | _ => none

/-- An integer of a range, written without fraction and exponent. -/
def integer (r : Text.IntegerRange) : Decoder Int := scalar fun
  | .number (some (.int n)) => if r.contains n then some n else none
  | _ => none

/-- A natural number below `2 ^ bits`. -/
def natural (bits : Nat) : Decoder Nat := map Int.toNat (integer (.unsigned bits))

/-- A value or `null`. -/
def option (d : Decoder α) : Decoder (Option α) := fun depth ts =>
  match ts with
  | .null :: rest => .ok (none, rest)
  | ts => map some d depth ts

/-- What stands where an element of an array may begin. -/
inductive Next
  | close (rest : List Token)
  | item (rest : List Token)
  deriving DecidableEq, Repr

/-- Looks for the next element of an array. -/
def nextItem (first : Bool) : List Token → Except Fault Next
  | .closeArray :: rest => .ok (.close rest)
  | .comma :: rest =>
    if first then .ok (.item (.comma :: rest))
    else
      match rest with
      | [] => .error .malformed
      | .closeArray :: _ => .error .malformed
      | rest => .ok (.item rest)
  | [] => .error .malformed
  | ts => if first then .ok (.item ts) else .error .malformed

/-- The elements of an array after its opening bracket; the fuel bounds their number. -/
def items (d : List Token → Except Fault (α × List Token)) :
    Nat → Bool → List Token → Except Fault (List α × List Token)
  | 0, _, _ => .error .malformed
  | fuel + 1, first, ts =>
    match nextItem first ts with
    | .error e => .error e
    | .ok (.close rest) => .ok ([], rest)
    | .ok (.item ts) =>
      match d ts with
      | .error e => .error e
      | .ok (a, rest) => (items d fuel false rest).map fun r => (a :: r.1, r.2)

/-- An array of values. -/
def list (d : Decoder α) : Decoder (List α) := fun depth ts =>
  match depth, ts with
  | 0, .openArray :: _ => .error .malformed
  | depth + 1, .openArray :: rest => items (d depth) (rest.length + 1) true rest
  | _, ts => refuse ts

/-- What stands where a member of an object may begin: its end, or a name with what follows it. -/
inductive NextMember
  | close (rest : List Token)
  | name (k : String) (rest : List Token)
  deriving DecidableEq, Repr

/-- The name of a member. -/
def memberName : List Token → Except Fault NextMember
  | .text (some k) :: rest => .ok (.name k rest)
  | _ => .error .malformed

/-- Looks for the next member of an object. -/
def nextMember (first : Bool) : List Token → Except Fault NextMember
  | .closeObject :: rest => .ok (.close rest)
  | .comma :: rest => if first then .error .malformed else memberName rest
  | ts => if first then memberName ts else .error .malformed

/-- Passes the colon between a name and its value. -/
def afterColon : List Token → Except Fault (List Token)
  | .colon :: rest => .ok rest
  | _ => .error .malformed

/-- The members of an object after its opening brace, in order and with repetitions. -/
def members (d : List Token → Except Fault (α × List Token)) :
    Nat → Bool → List Token → Except Fault (List (String × α) × List Token)
  | 0, _, _ => .error .malformed
  | fuel + 1, first, ts =>
    match nextMember first ts with
    | .error e => .error e
    | .ok (.close rest) => .ok ([], rest)
    | .ok (.name k rest) =>
      match afterColon rest with
      | .error e => .error e
      | .ok rest =>
        match d rest with
        | .error e => .error e
        | .ok (a, rest) => (members d fuel false rest).map fun r => ((k, a) :: r.1, r.2)

/-- A tree as it is written, repeated member names included. -/
def tree : Decoder Value
  | 0, ts => leaf 0 ts
  | depth + 1, .openArray :: rest =>
    (items (tree depth) (rest.length + 1) true rest).map fun r => (.array r.1, r.2)
  | depth + 1, .openObject :: rest =>
    (members (tree depth) (rest.length + 1) true rest).map fun r => (.object r.1, r.2)
  | depth + 1, ts => leaf (depth + 1) ts
where
  /-- A scalar as a tree. -/
  leaf : Decoder Value := fun depth ts =>
    match ts with
    | .openArray :: _ | .openObject :: _ => .error .malformed
    | ts => scalar (fun
      | .null => some .null
      | .bool b => some (.bool b)
      | .number n => n.map .number
      | .text s => s.map .text
      | _ => none) depth ts

end Decoder

mutual

/-- The tree in which every object has each name once, the last member of a name winning. -/
def Value.unify : Value → Value
  | .array vs => .array (unifyItems vs)
  | .object ms => .object (Value.uniqueMembers (unifyMembers ms))
  | v => v

/-- Unifies each item. -/
def Value.unifyItems : List Value → List Value
  | [] => []
  | v :: vs => v.unify :: Value.unifyItems vs

/-- Unifies the value of each member. -/
def Value.unifyMembers : List (String × Value) → List (String × Value)
  | [] => []
  | (k, v) :: ms => (k, v.unify) :: Value.unifyMembers ms

end

namespace Decoder

variable {α σ : Type}

/-- Any value. -/
def value : Decoder Value := map Value.unify tree

/-- An open bracket of a value that is being skipped. -/
inductive Frame
  | array
  | object
  deriving DecidableEq, Repr

/-- What a skipping reader may meet next. -/
inductive Expect
  /-- A value. -/
  | value
  /-- A value, or the end of the array that has just been opened. -/
  | firstItem
  /-- A name, or the end of the object that has just been opened. -/
  | firstName
  /-- A name. -/
  | name
  /-- The colon after a name. -/
  | colon
  /-- A comma, or the end of the innermost bracket. -/
  | separator
  deriving DecidableEq, Repr

/-- The token is a scalar, whether or not it has a value. -/
def isScalar : Token → Bool
  | .null | .bool _ | .number _ | .text _ => true
  | _ => false

/-- Passes over one value, however deeply it nests, and gives what follows it. -/
def skipFrom : List Frame → Expect → List Token → Except Fault (List Token)
  | _, _, [] => .error .malformed
  | fs, .colon, t :: ts => if t == .colon then skipFrom fs .value ts else .error .malformed
  | fs, .name, t :: ts =>
    match t with
    | .text _ => skipFrom fs .colon ts
    | _ => .error .malformed
  | fs, .firstName, t :: ts =>
    match t, fs with
    | .text _, fs => skipFrom fs .colon ts
    | .closeObject, [_] => .ok ts
    | .closeObject, _ :: fs => skipFrom fs .separator ts
    | _, _ => .error .malformed
  | fs, .separator, t :: ts =>
    match t, fs with
    | .comma, .array :: _ => skipFrom fs .value ts
    | .comma, .object :: _ => skipFrom fs .name ts
    | .closeArray, [.array] => .ok ts
    | .closeArray, .array :: fs => skipFrom fs .separator ts
    | .closeObject, [.object] => .ok ts
    | .closeObject, .object :: fs => skipFrom fs .separator ts
    | _, _ => .error .malformed
  | fs, .firstItem, t :: ts =>
    match t, fs with
    | .closeArray, [_] => .ok ts
    | .closeArray, _ :: fs => skipFrom fs .separator ts
    | .openArray, fs => skipFrom (.array :: fs) .firstItem ts
    | .openObject, fs => skipFrom (.object :: fs) .firstName ts
    | t, fs => if isScalar t then skipFrom fs .separator ts else .error .malformed
  | fs, .value, t :: ts =>
    match t, fs with
    | .openArray, fs => skipFrom (.array :: fs) .firstItem ts
    | .openObject, fs => skipFrom (.object :: fs) .firstName ts
    | t, [] => if isScalar t then .ok ts else .error .malformed
    | t, fs => if isScalar t then skipFrom fs .separator ts else .error .malformed

/-- Passes over any value. -/
def skip : Decoder Unit := fun _ ts => (skipFrom [] .value ts).map fun rest => ((), rest)

/-- Whether a member of a record may be left out. -/
inductive Presence
  /-- The member must be there. -/
  | required
  /-- An object may leave the member out, an array may not. -/
  | nullable
  /-- The member may be left out, in an array when it is one of the last. -/
  | defaulted
  deriving DecidableEq, Repr

/-- A member of a record: its names, and how it is read into the record. -/
structure Field (σ : Type) where
  names : List String
  presence : Presence
  read : Decoder (σ → σ)

/-- A member with one name that must be there. -/
def Field.required (name : String) (d : Decoder α) (set : α → σ → σ) : Field σ :=
  ⟨[name], .required, map set d⟩

/-- A member that an object may leave out, or give as `null`. -/
def Field.nullable (name : String) (d : Decoder α) (set : Option α → σ → σ) : Field σ :=
  ⟨[name], .nullable, map set (option d)⟩

/-- A member that may be left out. -/
def Field.defaulted (name : String) (d : Decoder α) (set : α → σ → σ) : Field σ :=
  ⟨[name], .defaulted, map set d⟩

/-- The field with one more name. -/
def Field.orNamed (f : Field σ) (name : String) : Field σ := { f with names := f.names ++ [name] }

/-- The position of the field of a name. -/
def findField (fields : List (Field σ)) (name : String) : Option (Nat × Field σ) :=
  (fields.zipIdx.find? fun f => f.1.names.contains name).map fun f => (f.2, f.1)

/-- Every field that must be there has been seen; fields are known by their position. -/
def isComplete (fields : List (Field σ)) (seen : List Nat) : Bool :=
  fields.zipIdx.all fun f => f.1.presence != .required || seen.contains f.2

/-- The members of a record after the opening brace; `other` reads a member of no field, or has none
where such a member may not stand. -/
def recordMembers (fields : List (Field σ)) (other : String → Option (Decoder (σ → σ)))
    (depth : Nat) :
    Nat → Bool → List Nat → σ → List Token → Except Fault (σ × List Token)
  | 0, _, _, _, _ => .error .malformed
  | fuel + 1, first, seen, s, ts =>
    match nextMember first ts with
    | .error e => .error e
    | .ok (.close rest) => if isComplete fields seen then .ok (s, rest) else .error .mismatch
    | .ok (.name k rest) =>
      let (i?, read?) := match findField fields k with
        | some (i, f) => (some i, some f.read)
        | none => (none, other k)
      match i?.any seen.contains, read? with
      | false, some read =>
        match afterColon rest with
        | .error e => .error e
        | .ok rest =>
          match read depth rest with
          | .error e => .error e
          | .ok (set, rest) =>
            recordMembers fields other depth fuel false (i?.toList ++ seen) (set s) rest
      | _, _ => .error .mismatch

/-- The members of a record in order, after the opening bracket. -/
def recordItems (depth : Nat) :
    List (Field σ) → Bool → σ → List Token → Except Fault (σ × List Token)
  | [], _, s, ts =>
    match ts with
    | .closeArray :: rest => .ok (s, rest)
    | _ => .error .malformed
  | f :: fields, first, s, ts =>
    match nextItem first ts with
    | .error e => .error e
    | .ok (.close rest) =>
      if (f :: fields).all (·.presence == .defaulted) then .ok (s, rest) else .error .mismatch
    | .ok (.item ts) =>
      match f.read depth ts with
      | .error e => .error e
      | .ok (set, rest) => recordItems depth fields false (set s) rest

/-- A record from an object only; `other` reads a member of no field. -/
def objectRecord (blank : σ) (fields : List (Field σ))
    (other : String → Option (Decoder (σ → σ))) : Decoder σ := fun depth ts =>
  match depth, ts with
  | 0, .openObject :: _ => .error .malformed
  | depth + 1, .openObject :: rest =>
    recordMembers fields other depth (rest.length + 1) true [] blank rest
  | _, ts => refuse ts

/-- Passes over a member of no field. -/
def ignore (_ : String) : Option (Decoder (σ → σ)) := some (map (fun _ s => s) skip)

/-- Keeps a member of no field as a tree. -/
def keep (add : String × Value → σ → σ) (k : String) : Option (Decoder (σ → σ)) :=
  some (map (fun v => add (k, v)) tree)

/-- A record from an object, or from an array of its members in order; `other` reads a member of no
field. -/
def recordOr (other : String → Option (Decoder (σ → σ))) (blank : σ) (fields : List (Field σ)) :
    Decoder σ := fun depth ts =>
  match depth, ts with
  | 0, .openArray :: _ => .error .malformed
  | depth + 1, .openArray :: rest => recordItems depth fields true blank rest
  | depth, ts => objectRecord blank fields other depth ts

/-- A record from an object, which may have other members, or from an array of its members. -/
def record (blank : σ) (fields : List (Field σ)) : Decoder σ := recordOr ignore blank fields

/-- A record from an object, which may have no other members, or from an array of its members. -/
def closedRecord (blank : σ) (fields : List (Field σ)) : Decoder σ :=
  recordOr (fun _ => none) blank fields

/-- What comes with the name of a variant. -/
inductive Variant (α : Type)
  /-- Nothing, or `null` in the object form. -/
  | plain (a : α)
  /-- A value, in the object form only. -/
  | carrying (d : Decoder α)

/-- One of several variants: the name of a plain one, or an object whose one member has the
variant's name. -/
def oneOf (variants : List (String × Variant α)) : Decoder α := fun depth ts =>
  match depth, ts with
  | 0, .openObject :: _ => .error .malformed
  | _, .text (some name) :: rest =>
    match variants.lookup name with
    | some (.plain a) => .ok (a, rest)
    | _ => .error .mismatch
  | depth + 1, .openObject :: .text (some name) :: rest =>
    match variants.lookup name with
    | none => .error .mismatch
    | some v =>
      match afterColon rest with
      | .error e => .error e
      | .ok rest =>
        let payload := match v with
          | .plain a => map (fun _ => a) null
          | .carrying d => d
        match payload depth rest with
        | .error e => .error e
        | .ok (a, .closeObject :: rest) => .ok (a, rest)
        | .ok _ => .error .malformed
  | _ + 1, .openObject :: rest => refuse rest
  | _, _ => .error .malformed

/-- Decodes a list of tokens that holds nothing else. -/
def runTokens (d : Decoder α) (ts : List Token) : Except Fault α :=
  match d maxDepth ts with
  | .ok (a, []) => .ok a
  | .ok _ => .error .malformed
  | .error e => .error e

/-- Decodes a text that holds nothing else. -/
def run (d : Decoder α) (s : String) : Except Fault α := d.runTokens (tokenize s)

/-- Decodes the head of a text and leaves the rest of it aside. -/
def runHead (d : Decoder α) (s : String) : Except Fault α :=
  (d maxDepth (tokenize s)).map (·.1)

/-- Decodes a tree. -/
def ofTree (d : Decoder α) (v : Value) : Option α := (d.runTokens v.tokens).toOption

/-- Reads a tree first and then decodes it, so that a text that is no JSON is found before a
value of another shape. -/
def viaTree (f : Value → Option α) : Decoder α := filterMap f tree

/-- A record whose members stand among those of another one: the named fields are read first,
and then the inner record from the members that are left. -/
def embedding {β : Type} (blank : σ) (fields : List (Field σ)) (inner : Decoder β)
    (combine : σ → β → α) : Decoder α :=
  let lift (f : Field σ) : Field (σ × List (String × Value)) :=
    ⟨f.names, f.presence, map (fun set s => (set s.1, s.2)) f.read⟩
  filterMap
    (fun s => (inner.ofTree (.object s.2.reverse)).map (combine s.1))
    (objectRecord (blank, []) (fields.map lift) (keep fun m s => (s.1, m :: s.2)))

/-- The elements of an array after its first one, as trees. -/
def laterItems (depth : Nat) (ts : List Token) : Except Fault (List Value × List Token) :=
  items (tree depth) (ts.length + 1) false ts

/-- A variant whose name stands among the members of its object, or comes first in its array. What
else is there is read when the name is known. -/
def tagged {τ : Type} (name : String) (tag : Decoder τ) (body : τ → Decoder α) : Decoder α :=
  fun depth ts =>
    match depth, ts with
    | 0, .openArray :: _ => .error .malformed
    | depth + 1, .openArray :: rest =>
      match nextItem true rest with
      | .error e => .error e
      | .ok (.close _) => .error .mismatch
      | .ok (.item ts) =>
        match tag depth ts with
        | .error e => .error e
        | .ok (t, rest) =>
          match laterItems depth rest with
          | .error e => .error e
          | .ok (vs, rest) =>
            match (body t).ofTree (.array vs) with
            | some a => .ok (a, rest)
            | none => .error .mismatch
    | depth, ts =>
      filterMap
        (fun s : Option τ × List (String × Value) =>
          s.1.bind fun t => (body t).ofTree (.object s.2.reverse))
        (objectRecord (none, []) [.required name tag fun t s => (some t, s.2)]
          (keep fun m s => (s.1, m :: s.2))) depth ts

end Decoder

end Marketplace.Json
