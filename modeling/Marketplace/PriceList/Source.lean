import Marketplace.Refusal
import Marketplace.Json.Decoder
import Marketplace.Text.Blank
set_option autoImplicit false

/-!
# Where a price list comes from

A shop names a file, or sends the document itself.
-/

namespace Marketplace

open Json (Value Decoder)

/-- A file or a document. -/
inductive PriceListSource
  | path (p : String)
  | document (text : String)
  deriving DecidableEq, Repr

namespace PriceListSource

/-- A short description for messages. -/
def describe : PriceListSource → String
  | .path p => p
  | .document t => s!"inline document ({t.utf8ByteSize} bytes)"

/-- The JSON form. -/
def toJson : PriceListSource → Value
  | .path p => .object [("path", .text p)]
  | .document t => .object [("document", .text t)]

/-- Reads the JSON form. -/
def decoder : Decoder PriceListSource :=
  .oneOf [("path", .carrying (.map path .text)), ("document", .carrying (.map document .text))]

end PriceListSource

/-- A request to import a price list. -/
structure ImportRequest where
  path : Option String
  document : Option String
  deriving DecidableEq, Repr

namespace ImportRequest

/-- Reads the request. -/
def decoder : Decoder ImportRequest :=
  .record ⟨none, none⟩ [
    .nullable "path" .text fun v r => { r with path := v },
    .nullable "document" .text fun v r => { r with document := v }]

/-- The one source that is given; a blank one counts as missing. -/
def source (r : ImportRequest) : Except Refusal PriceListSource :=
  match r.path.bind Text.nonBlank?, r.document.filter fun d => !Text.isBlankText d with
  | some p, none => .ok (.path p)
  | none, some d => .ok (.document d)
  | none, none => .error (.invalidArguments "path: one of path or document is required")
  | some _, some _ => .error (.invalidArguments "path: send either path or document, not both")

end ImportRequest

end Marketplace
