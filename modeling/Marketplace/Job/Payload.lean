import Marketplace.Id
import Marketplace.PriceList.Source
set_option autoImplicit false

/-!
# What jobs are to do

A job imports a price list, or tells people of a placed order.
-/

namespace Marketplace

open Json (Value Decoder)

/-- The kinds of work. -/
inductive JobKind
  | importPriceList
  | notifyOrderPlaced
  deriving DecidableEq, Repr

namespace JobKind

/-- The kinds in order. -/
def all : List JobKind := [.importPriceList, .notifyOrderPlaced]

/-- The name. -/
def name : JobKind → String
  | .importPriceList => "import_price_list"
  | .notifyOrderPlaced => "notify_order_placed"

/-- The kind of a name. -/
def ofName? (s : String) : Option JobKind := all.find? fun k => k.name == s

/-- The JSON form. -/
def toJson (k : JobKind) : Value := .text k.name

end JobKind

/-- The work of a job. -/
inductive JobPayload
  | importPriceList (source : PriceListSource) (user : UserId)
  | notifyOrderPlaced (buyer : UserId) (order : OrderId)
  deriving DecidableEq, Repr

namespace JobPayload

/-- The kind of the work. -/
def kind : JobPayload → JobKind
  | .importPriceList _ _ => .importPriceList
  | .notifyOrderPlaced _ _ => .notifyOrderPlaced

/-- The members of the JSON form besides the kind. -/
def members : JobPayload → List (String × Value)
  | .importPriceList source user => [("source", source.toJson), ("user_id", user.toJson)]
  | .notifyOrderPlaced buyer order => [("buyer_id", buyer.toJson), ("order_id", order.toJson)]

/-- The JSON form. -/
def toJson (p : JobPayload) : Value := .object (("kind", p.kind.toJson) :: p.members)

/-- Reads the members besides the kind. -/
def bodyDecoder : JobKind → Decoder JobPayload
  | .importPriceList =>
    .map (fun p => .importPriceList p.1 p.2)
      (.record (.path "", ⟨0⟩) [
        .required "source" PriceListSource.decoder fun v p => (v, p.2),
        .required "user_id" Id.decoder fun v p => (p.1, v)])
  | .notifyOrderPlaced =>
    .map (fun p => .notifyOrderPlaced p.1 p.2)
      (.record (⟨0⟩, ⟨0⟩) [
        .required "buyer_id" Id.decoder fun v p => (v, p.2),
        .required "order_id" Id.decoder fun v p => (p.1, v)])

/-- Reads the JSON form. -/
def decoder : Decoder JobPayload := .tagged "kind" (.filterMap JobKind.ofName? .text) bodyDecoder

end JobPayload

end Marketplace
