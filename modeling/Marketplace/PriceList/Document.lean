import Marketplace.PriceList.Basic
set_option autoImplicit false

/-!
# Price lists as documents

Price lists are written in YAML; the JSON form has the same members.  Reading stops at the first
fault of a document, be it one of its form or one of a parameter.
-/

namespace Marketplace

open Json (Fault Decoder)
open Yaml (Reader)

namespace ParameterEntry

/-- An objection as a fault of reading. -/
def Objection.fault (o : Objection) : Fault := .objection o.message

/-- Reads the entries of a mapping: a key and its value, and then whether they may stand there. -/
def readEntries (r : Yaml.Node → Yaml.Jumps → Except Fault (Yaml.Value × Yaml.Jumps)) :
    List Yaml.Node → List ParameterEntry → Yaml.Jumps →
      Except Fault (List ParameterEntry × Yaml.Jumps)
  | k :: v :: rest, seen, jumps =>
    match r k jumps with
    | .error e => .error e
    | .ok (key, jumps) =>
      match r v jumps with
      | .error e => .error e
      | .ok (value, jumps) =>
        match make seen key value with
        | .error o => .error o.fault
        | .ok p => readEntries r rest (seen ++ [p]) jumps
  | [_], _, _ => .error .malformed
  | [], seen, jumps => .ok (seen, jumps)

/-- Parameters from a mapping; nothing stands for none. -/
def reader (src : Yaml.Source) : Reader (List ParameterEntry) := fun depth n jumps =>
  match Reader.resolve src n jumps with
  | .error e => .error e
  | .ok (.scalar _ s, jumps) =>
    match (Reader.ownTag? s.tag).isSome, Reader.scalarValue s with
    | false, .ok .null => .ok ([], jumps)
    | _, _ => .error .mismatch
  | .ok (.mapping _ tag entries finished, jumps) =>
    if (Reader.ownTag? tag).isSome then .error .mismatch
    else
      match depth with
      | 0 => .error .malformed
      | depth + 1 =>
        (readEntries (Reader.value src depth) entries [] jumps).bind (Reader.finish finished)
  | .ok _ => .error .mismatch

/-- The number as a YAML document would have it. -/
def ofNumber : Json.Number → Yaml.Value
  | .int n => .int n
  | .float x => .float x

mutual

/-- A JSON tree as a YAML value; it has none if a name stands twice in an object. -/
def ofTree? : Json.Value → Option Yaml.Value
  | .null => some .null
  | .bool b => some (.bool b)
  | .number n => some (ofNumber n)
  | .text s => some (.text s)
  | .array vs => (ofItems? vs).map .sequence
  | .object ms =>
    if (ms.map Prod.fst).Nodup then (ofMembers? ms).map .mapping else none

/-- The values of an array's items. -/
def ofItems? : List Json.Value → Option (List Yaml.Value)
  | [] => some []
  | v :: vs => (ofTree? v).bind fun w => (ofItems? vs).map (w :: ·)

/-- The entries of an object's members. -/
def ofMembers? : List (String × Json.Value) → Option (List (Yaml.Value × Yaml.Value))
  | [] => some []
  | (k, v) :: ms => (ofTree? v).bind fun w => (ofMembers? ms).map ((.text k, w) :: ·)

end

/-- Any JSON value as a YAML value. -/
def valueDecoder : Decoder Yaml.Value := .filterMap ofTree? .tree

/-- The members of an object of parameters after the opening brace. -/
def decodeMembers (depth : Nat) :
    Nat → Bool → List ParameterEntry → List Json.Token →
      Except Fault (List ParameterEntry × List Json.Token)
  | 0, _, _, _ => .error .malformed
  | fuel + 1, first, seen, ts =>
    match Decoder.nextMember first ts with
    | .error e => .error e
    | .ok (.close rest) => .ok (seen, rest)
    | .ok (.name k rest) =>
      match (Decoder.afterColon rest).bind (valueDecoder depth) with
      | .error e => .error e
      | .ok (value, rest) =>
        match make seen (.text k) value with
        | .error o => .error o.fault
        | .ok p => decodeMembers depth fuel false (seen ++ [p]) rest

/-- Parameters from an object; `null` stands for none. -/
def decoder : Decoder (List ParameterEntry) := fun depth ts =>
  match depth, ts with
  | _, .null :: rest => .ok ([], rest)
  | 0, .openObject :: _ => .error .malformed
  | depth + 1, .openObject :: rest => decodeMembers depth (rest.length + 1) true [] rest
  | _, ts => Decoder.refuse ts

end ParameterEntry

namespace DeclaredCategory

/-- A category before anything of it has been read. -/
def blank : DeclaredCategory := ⟨⟨0⟩, ""⟩

/-- Reads a category. -/
def reader (src : Yaml.Source) : Reader DeclaredCategory :=
  .record src blank [
    .of "id" true (Reader.integer src) fun v c => { c with id := ⟨v⟩ },
    .of "name" true (Reader.text src) fun v c => { c with name := v }]

/-- Reads the JSON form. -/
def decoder : Decoder DeclaredCategory :=
  .record blank [
    .required "id" Id.decoder fun v c => { c with id := v },
    .required "name" .text fun v c => { c with name := v }]

end DeclaredCategory

namespace Good

/-- A good before anything of it has been read; model and parameters may stay so. -/
def blank : Good := ⟨0, ⟨0⟩, "", "", 0, 0, 0, []⟩

/-- Reads a good. -/
def reader (src : Yaml.Source) : Reader Good :=
  .record src blank [
    .of "id" true (Reader.integer src) fun v g => { g with externalId := v },
    .of "category" true (Reader.integer src) fun v g => { g with category := ⟨v⟩ },
    .of "name" true (Reader.text src) fun v g => { g with name := v },
    .of "model" false (Reader.text src) fun v g => { g with model := v },
    .of "price" true (Reader.integer src) fun v g => { g with price := v },
    .of "price_rrc" true (Reader.integer src) fun v g => { g with priceRrc := v },
    .of "quantity" true (Reader.integer src) fun v g => { g with quantity := v },
    .of "parameters" false (ParameterEntry.reader src) fun v g => { g with parameters := v }]

/-- Reads the JSON form. -/
def decoder : Decoder Good :=
  .record blank [
    .required "id" (.integer .signed64) fun v g => { g with externalId := v },
    .required "category" Id.decoder fun v g => { g with category := v },
    .required "name" .text fun v g => { g with name := v },
    .defaulted "model" .text fun v g => { g with model := v },
    .required "price" (.integer .signed64) fun v g => { g with price := v },
    .required "price_rrc" (.integer .signed64) fun v g => { g with priceRrc := v },
    .required "quantity" (.integer .signed64) fun v g => { g with quantity := v },
    .defaulted "parameters" ParameterEntry.decoder fun v g => { g with parameters := v }]

end Good

namespace PriceList

/-- A price list before anything of it has been read. -/
def blank : PriceList := ⟨"", [], []⟩

/-- Reads a price list. -/
def reader (src : Yaml.Source) : Reader PriceList :=
  .record src blank [
    .of "shop" true (Reader.text src) fun v l => { l with shop := v },
    .of "categories" true (Reader.list src (DeclaredCategory.reader src))
      fun v l => { l with categories := v },
    .of "goods" true (Reader.list src (Good.reader src)) fun v l => { l with goods := v }]

/-- Reads the JSON form. -/
def decoder : Decoder PriceList :=
  .record blank [
    .required "shop" .text fun v l => { l with shop := v },
    .required "categories" (.list DeclaredCategory.decoder) fun v l => { l with categories := v },
    .required "goods" (.list Good.decoder) fun v l => { l with goods := v }]

/-- The price list of a YAML document, which must be sound. -/
def ofText (s : String) : Except PriceListFault PriceList :=
  match Yaml.readText reader s with
  | .error e => .error (.malformed e.message)
  | .ok l => l.check.map fun _ => l

end PriceList

end Marketplace
