import Marketplace.Json.Decoder
set_option autoImplicit false

/-!
# Where a job stands
-/

namespace Marketplace

open Json (Value Decoder)

/-- Where a job stands. -/
inductive JobStatus
  /-- It waits for its first run. -/
  | pending
  /-- It has been claimed and runs. -/
  | running
  /-- Its last run failed, and it waits for the next one. -/
  | retrying (error : String) (attempt : Nat)
  /-- It is done. -/
  | succeeded
  /-- It has failed for good. -/
  | failed (reason : String) (attempts : Nat)
  deriving DecidableEq, Repr

namespace JobStatus

/-- The job does not go on by itself. -/
def isTerminal : JobStatus → Bool
  | .succeeded | .failed _ _ => true
  | _ => false

/-- The job waits for a run. -/
def isClaimable : JobStatus → Bool
  | .pending | .retrying _ _ => true
  | _ => false

/-- The job has failed for good. -/
def isFailed : JobStatus → Bool
  | .failed _ _ => true
  | _ => false

/-- The word that clients see. -/
def label : JobStatus → String
  | .pending | .retrying _ _ => "pending"
  | .running => "running"
  | .succeeded => "succeeded"
  | .failed _ _ => "failed"

/-- The last error. -/
def error? : JobStatus → Option String
  | .retrying e _ => some e
  | .failed r _ => some r
  | _ => none

/-- The JSON form. -/
def toJson : JobStatus → Value
  | .pending => .text "pending"
  | .running => .text "running"
  | .retrying e n => .object [("retrying", .object [("error", .text e), ("attempt", .nat n)])]
  | .succeeded => .text "succeeded"
  | .failed r n => .object [("failed", .object [("reason", .text r), ("attempts", .nat n)])]

/-- Reads a text and a number that come with a variant. -/
def reportDecoder (text number : String) : Decoder (String × Nat) :=
  .record ("", 0) [
    .required text .text fun v p => (v, p.2),
    .required number (.natural 32) fun v p => (p.1, v)]

/-- Reads the JSON form. -/
def decoder : Decoder JobStatus :=
  .oneOf [("pending", .plain .pending), ("running", .plain .running),
    ("retrying", .carrying (.map (fun p => .retrying p.1 p.2) (reportDecoder "error" "attempt"))),
    ("succeeded", .plain .succeeded),
    ("failed", .carrying (.map (fun p => .failed p.1 p.2) (reportDecoder "reason" "attempts")))]

end JobStatus

end Marketplace
