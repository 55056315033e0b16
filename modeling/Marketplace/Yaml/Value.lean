import Marketplace.Yaml.Node
import Marketplace.Yaml.Scalar
import Marketplace.Json.Decoder
set_option autoImplicit false

/-!
# Reading YAML documents

Values of any shape, and readers that take a typed value from a node.  Readers follow aliases, but
only so often in one document, and go down only so deep.  They share their faults with the decoders
of JSON.
-/

namespace Marketplace.Yaml

open Json (Fault)

/-- A value of any shape. -/
inductive Value
  | null
  | bool (b : Bool)
  | int (n : Int)
  | float (x : Binary64)
  | text (s : String)
  | sequence (items : List Value)
  | mapping (entries : List (Value × Value))
  | tagged (tag : String) (v : Value)
  deriving Repr, Inhabited

/-- Two doubles are the same number; zero has no sign here, and what is no number is one thing. -/
def sameFloat (x y : Binary64) : Bool := x == y || (x.isZero && y.isZero)

mutual

/-- Two values are the same; the order of a mapping's entries does not matter. -/
def Value.same : Value → Value → Bool
  | .null, .null => true
  | .bool a, .bool b => a == b
  | .int a, .int b => a == b
  | .float a, .float b => sameFloat a b
  | .text a, .text b => a == b
  | .sequence as, .sequence bs => sameItems as bs
  | .mapping as, .mapping bs => as.length == bs.length && sameEntries as bs
  | .tagged s a, .tagged t b => s == t && Value.same a b
  | _, _ => false

/-- Two lists hold the same values in the same order. -/
def sameItems : List Value → List Value → Bool
  | [], [] => true
  | a :: as, b :: bs => Value.same a b && sameItems as bs
  | _, _ => false

/-- Every entry of the first mapping stands in the second. -/
def sameEntries : List (Value × Value) → List (Value × Value) → Bool
  | [], _ => true
  | (k, v) :: as, bs => hasEntry k v bs && sameEntries as bs

/-- The entry stands in the mapping. -/
def hasEntry (k v : Value) : List (Value × Value) → Bool
  | [] => false
  | (l, w) :: bs => (Value.same k l && Value.same v w) || hasEntry k v bs

end

/-- A document as readers need it: its anchored nodes, later ones first. -/
structure Source where
  anchored : List (Nat × Node)
  deriving Repr

/-- How many aliases may still be followed. -/
abbrev Jumps := Nat

/-- Takes a value from a node; the numbers say how deep it may still go and how many aliases it may
still follow. -/
abbrev Reader (α : Type) := Nat → Node → Jumps → Except Fault (α × Jumps)

/-- How deep a document may nest. -/
def maxDepth : Nat := 128

namespace Reader

variable {α σ : Type}

/-- The node itself, or the node that an alias stands for. -/
def resolve (src : Source) (n : Node) (jumps : Jumps) : Except Fault (Node × Jumps) :=
  match n with
  | .alias i =>
    match jumps with
    | 0 => .error .malformed
    | jumps + 1 =>
      match src.anchored.lookup i with
      | some n => .ok (n, jumps)
      | none => .error .malformed
  | n => .ok (n, jumps)

/-- A scalar that `f` accepts. -/
def scalar (src : Source) (f : Scalar → Except Fault α) : Reader α := fun _ n jumps =>
  match resolve src n jumps with
  | .error e => .error e
  | .ok (.scalar _ s, jumps) => (f s).map fun a => (a, jumps)
  | .ok _ => .error .mismatch

/-- The text of any scalar, as it is written. -/
def text (src : Source) : Reader String := scalar src fun s => .ok s.text

/-- The full name of a tag of the core schema. -/
def coreTag (name : String) : String := "tag:yaml.org,2002:" ++ name

/-- An integer of 64 bits: a plain scalar, or a literal one with the tag of integers. -/
def integer (src : Source) : Reader Int := scalar src fun s =>
  if s.style == .plain || (s.style == .literal && s.tag == some (coreTag "int")) then
    match signedInteger? s.text with
    | some n => .ok n
    | none => .error .mismatch
  else .error .mismatch

/-- Reads nodes one after the other. -/
def each (r : Node → Jumps → Except Fault (α × Jumps)) :
    List Node → Jumps → Except Fault (List α × Jumps)
  | [], jumps => .ok ([], jumps)
  | n :: ns, jumps =>
    match r n jumps with
    | .error e => .error e
    | .ok (a, jumps) => (each r ns jumps).map fun p => (a :: p.1, p.2)

/-- A collection must be finished. -/
def finish (finished : Bool) (a : α) : Except Fault α :=
  if finished then .ok a else .error .malformed

/-- A sequence; where nothing is written, it is empty. -/
def list (src : Source) (r : Reader α) : Reader (List α) := fun depth n jumps =>
  match resolve src n jumps with
  | .error e => .error e
  | .ok (.sequence _ _ items finished, jumps) =>
    match depth with
    | 0 => .error .malformed
    | depth + 1 => (each (r depth) items jumps).bind (finish finished)
  | .ok (.scalar _ s, jumps) =>
    if s.text.isEmpty && s.style == .plain then .ok ([], jumps) else .error .mismatch
  | .ok _ => .error .mismatch

/-- A member of a record: its name, whether it must be there, and how it is read. -/
structure Field (σ : Type) where
  name : String
  required : Bool
  read : Reader (σ → σ)

/-- A member of a record. -/
def Field.of (name : String) (required : Bool) (r : Reader α) (set : α → σ → σ) : Field σ :=
  ⟨name, required, fun depth n jumps => (r depth n jumps).map fun p => (set p.1, p.2)⟩

/-- The entries of a record's mapping; unknown ones are passed over. -/
def fieldEntries (src : Source) (fields : List (Field σ)) (depth : Nat) :
    List Node → List String → σ → Jumps → Except Fault ((List String × σ) × Jumps)
  | [], seen, s, jumps => .ok ((seen, s), jumps)
  | k :: rest, seen, s, jumps =>
    match text src depth k jumps with
    | .error e => .error e
    | .ok (name, jumps) =>
      match fields.find? (·.name == name), rest with
      | none, v :: rest =>
        if v.isFinished then fieldEntries src fields depth rest seen s jumps
        else .error .malformed
      | some f, rest =>
        if seen.contains name then .error .mismatch
        else
          match rest with
          | [] => .error .malformed
          | v :: rest =>
            match f.read depth v jumps with
            | .error e => .error e
            | .ok (set, jumps) =>
              fieldEntries src fields depth rest (name :: seen) (set s) jumps
      | none, [] => .error .malformed

/-- A record from a mapping. -/
def record (src : Source) (blank : σ) (fields : List (Field σ)) : Reader σ :=
  fun depth n jumps =>
    match resolve src n jumps with
    | .error e => .error e
    | .ok (.mapping _ _ entries finished, jumps) =>
      match depth with
      | 0 => .error .malformed
      | depth + 1 =>
        match fieldEntries src fields depth entries [] blank jumps with
        | .error e => .error e
        | .ok ((seen, s), jumps) =>
          if !finished then .error .malformed
          else if fields.all fun f => !f.required || seen.contains f.name then .ok (s, jumps)
          else .error .mismatch
    | .ok _ => .error .mismatch

/-- The name of a tag of the document's own. -/
def ownTag? (tag : Option String) : Option String :=
  match tag.map String.toList with
  | some ('!' :: rest) => some (if rest.isEmpty then "!" else String.ofList rest)
  | _ => none

/-- What an untagged scalar means as a value. -/
def meaningValue (s : String) : Except Fault Value :=
  match meaning s with
  | .null => .ok .null
  | .bool b => .ok (.bool b)
  | .int n => .ok (.int n)
  | .wideInt => .error .mismatch
  | .float x => .ok (.float x)
  | .text => .ok (.text s)

/-- The value of a scalar.  A tag of the core schema says what the text must mean; an own tag has
been looked at already. -/
def scalarValue (s : Scalar) : Except Fault Value :=
  let plain := s.style == .plain
  match s.tag with
  | none => if plain then meaningValue s.text else .ok (.text s.text)
  | some tag =>
    if (ownTag? s.tag).isSome then if plain then meaningValue s.text else .ok (.text s.text)
    else if tag == coreTag "bool" then
      match bool? s.text with
      | some b => .ok (.bool b)
      | none => .error .mismatch
    else if tag == coreTag "int" then
      match integerMeaning? s.text with
      | some (.int n) => .ok (.int n)
      | _ => .error .mismatch
    else if tag == coreTag "float" then
      match float? s.text with
      | some x => .ok (.float x)
      | none => .error .mismatch
    else if tag == coreTag "null" then
      if isNull s.text then .ok .null else .error .mismatch
    else .ok (.text s.text)

/-- Wraps a value into its own tag, if it has one. -/
def wrapTag (tag : Option String) (v : Value) : Value :=
  match ownTag? tag with
  | some t => .tagged t v
  | none => v

/-- Reads the entries of a mapping in which no key may stand twice. -/
def valueEntries (r : Node → Jumps → Except Fault (Value × Jumps)) :
    List Node → List (Value × Value) → Jumps → Except Fault (List (Value × Value) × Jumps)
  | k :: v :: rest, seen, jumps =>
    match r k jumps with
    | .error e => .error e
    | .ok (key, jumps) =>
      if seen.any fun e => e.1.same key then .error .mismatch
      else
        match r v jumps with
        | .error e => .error e
        | .ok (value, jumps) => valueEntries r rest (seen ++ [(key, value)]) jumps
  | [_], _, _ => .error .malformed
  | [], seen, jumps => .ok (seen, jumps)

/-- Any value. -/
def value (src : Source) : Reader Value
  | depth, n, jumps =>
    match resolve src n jumps with
    | .error e => .error e
    | .ok (.scalar _ s, jumps) => (scalarValue s).map fun v => (wrapTag s.tag v, jumps)
    | .ok (.sequence _ tag items finished, jumps) =>
      match depth with
      | 0 => .error .malformed
      | depth + 1 =>
        (each (value src depth) items jumps).bind fun p =>
          finish finished (wrapTag tag (.sequence p.1), p.2)
    | .ok (.mapping _ tag entries finished, jumps) =>
      match depth with
      | 0 => .error .malformed
      | depth + 1 =>
        (valueEntries (value src depth) entries [] jumps).bind fun p =>
          finish finished (wrapTag tag (.mapping p.1), p.2)
    | .ok (.alias _, _) => .error .malformed

end Reader

/-- Reads the one document of a text. -/
def readText {α : Type} (r : Source → Reader α) (s : String) : Except Fault α :=
  let d := Document.ofText s
  match d.root with
  | none => .error .malformed
  | some n =>
    match r ⟨n.anchored.reverse⟩ maxDepth n (n.weight * 100) with
    | .error e => .error e
    | .ok (a, _) => if d.alone then .ok a else .error .malformed

end Marketplace.Yaml
