import Marketplace.Account.Basic
import Marketplace.Time.Instant
import Marketplace.Crypto.Base64Url
import Marketplace.Crypto.Hmac
set_option autoImplicit false

/-!
# Bearer tokens

Signed claims about an account.  A token has three parts with dots between them: a header that
names the algorithm, the claims, and the HMAC-SHA256 of the first two under the marketplace's
secret.  `Token.read` takes a token apart, `Token.sign` makes one, and `Claims.check` compares the
claims' window of time with the clock.
-/

namespace Marketplace

/-- What a token says: the account it speaks for and the window of time it is good for. -/
structure Claims where
  subject : UserId
  email : String
  accountType : AccountType
  issuedAt : Instant
  expiresAt : Instant
  deriving DecidableEq, Repr

/-- The reasons why a text is no token of this marketplace. -/
inductive TokenFlaw
  /-- There are fewer than three parts. -/
  | parts
  /-- The header names an algorithm other than HMAC-SHA256. -/
  | algorithm
  /-- The signature is not the one of the other parts. -/
  | signature
  /-- The token is meant for a named audience. -/
  | audience
  /-- A part is not base64 of JSON of the expected shape. -/
  | unreadable
  deriving DecidableEq, Repr

/-- The name of the flaw. -/
def TokenFlaw.name : TokenFlaw → String
  | .parts => "InvalidToken"
  | .algorithm => "InvalidAlgorithm"
  | .signature => "InvalidSignature"
  | .audience => "InvalidAudience"
  | .unreadable => "unreadable part"

/-- Why a token is not accepted. -/
inductive TokenFault
  | expired
  | notYetValid
  | invalidTimeWindow
  | malformed (flaw : TokenFlaw)
  deriving DecidableEq, Repr

/-- The name of the kind of fault. -/
def TokenFault.label : TokenFault → String
  | .expired => "expired"
  | .notYetValid => "not_yet_valid"
  | .invalidTimeWindow => "invalid_time_window"
  | .malformed _ => "malformed"

/-- The wording of the fault. -/
def TokenFault.message : TokenFault → String
  | .expired => "token has expired"
  | .notYetValid => "token not yet valid (issued_at is in the future)"
  | .invalidTimeWindow => "invalid token time window (expires_at <= issued_at)"
  | .malformed flaw => "token is malformed or has a bad signature: " ++ flaw.name

namespace Claims

/-- The account that the token speaks for. -/
def account (c : Claims) : Account := ⟨c.subject, c.email, c.accountType⟩

/-- The window must not be empty, and the clock must stand in it: from the issue on, and before
the expiry. -/
def check (c : Claims) (now : Instant) : Except TokenFault Unit :=
  if c.expiresAt.le c.issuedAt then .error .invalidTimeWindow
  else if now.lt c.issuedAt then .error .notYetValid
  else if c.expiresAt.le now then .error .expired
  else .ok ()

/-- The JSON form. -/
def toJson (c : Claims) : Json.Value :=
  .object [("sub", c.subject.toJson), ("email", .text c.email),
    ("account_type", c.accountType.toJson), ("issued_at", c.issuedAt.toJson),
    ("expires_at", c.expiresAt.toJson)]

/-- Reads the JSON form. -/
def decoder : Json.Decoder Claims :=
  .record ⟨⟨0⟩, "", .buyer, ⟨0, 0⟩, ⟨0, 0⟩⟩ [
    .required "sub" Id.decoder fun v c => { c with subject := v },
    .required "email" .text fun v c => { c with email := v },
    .required "account_type" AccountType.decoder fun v c => { c with accountType := v },
    .required "issued_at" Instant.decoder fun v c => { c with issuedAt := v },
    .required "expires_at" Instant.decoder fun v c => { c with expiresAt := v }]

end Claims

namespace Token

open Json (Decoder)

/-- The algorithms that a header may name, and whether it is the one in use. -/
def algorithms : List (String × Decoder.Variant Bool) :=
  [("HS256", .plain true), ("HS384", .plain false), ("HS512", .plain false),
    ("ES256", .plain false), ("ES384", .plain false), ("RS256", .plain false),
    ("RS384", .plain false), ("RS512", .plain false), ("PS256", .plain false),
    ("PS384", .plain false), ("PS512", .plain false), ("EdDSA", .plain false)]

/-- Reads a header: whether it names the algorithm in use. -/
def header : Decoder Bool :=
  .record false [
    .nullable "typ" .text fun _ h => h,
    .required "alg" (.oneOf algorithms) fun v _ => v,
    .nullable "cty" .text fun _ h => h,
    .nullable "jku" .text fun _ h => h,
    .nullable "jwk" .skip fun _ h => h,
    .nullable "kid" .text fun _ h => h,
    .nullable "x5u" .text fun _ h => h,
    .nullable "x5c" (.list .text) fun _ h => h,
    .nullable "x5t" .text fun _ h => h,
    .nullable "x5t#S256" .text fun _ h => h]

/-- A registered claim that is looked at and set aside whatever it is.  Of an array or an object
only its brackets are passed, so that a filled one leaves the reader inside it. -/
def loose : Decoder Unit := fun depth ts =>
  match depth, ts with
  | _, .openArray :: .closeArray :: rest => .ok ((), rest)
  | _, .openArray :: rest => .ok ((), rest)
  | _, .openObject :: .closeObject :: rest => .ok ((), rest)
  | _, .openObject :: rest => .ok ((), rest)
  | depth, ts => Decoder.skip depth ts

/-- The claim is an audience: a text or a list of texts. -/
def isAudience : Json.Value → Bool
  | .text _ => true
  | .array vs => vs.all fun
    | .text _ => true
    | _ => false
  | _ => false

/-- Reads whether the claims name an audience. -/
def audience : Decoder Bool :=
  .record false [
    .defaulted "exp" loose fun _ a => a,
    .defaulted "nbf" loose fun _ a => a,
    .nullable "sub" .skip fun _ a => a,
    .nullable "iss" .tree fun _ a => a,
    .nullable "aud" .tree fun v _ => (v.map isAudience).getD false]

/-- The text up to the last dot and the text after it. -/
def splitLast (cs : List Char) : Option (List Char × List Char) :=
  let tail := cs.reverse.takeWhile (· != '.')
  match cs.reverse.dropWhile (· != '.') with
  | _ :: initial => some (initial.reverse, tail.reverse)
  | [] => none

/-- The text of a base64 part. -/
def partText? (cs : List Char) : Option String := do
  let bytes ← Base64Url.decode cs
  String.fromUTF8? ⟨bytes.toArray⟩

/-- The bytes of a text. -/
def bytes (s : String) : List UInt8 := s.toUTF8.toList

/-- The signature of the first two parts. -/
def signature (secret : String) (message : List Char) : List Char :=
  Base64Url.encode (Sha256.hmac (bytes secret) (bytes (String.ofList message)))

/-- The header that a new token has. -/
def headerJson : Json.Value := .object [("typ", .text "JWT"), ("alg", .text "HS256")]

/-- The token of a text of claims. -/
def signText (secret claims : String) : String :=
  let message := Base64Url.encode (bytes headerJson.render) ++
    '.' :: Base64Url.encode (bytes claims)
  String.ofList (message ++ '.' :: signature secret message)

/-- The token of claims. -/
def sign (secret : String) (c : Claims) : String := signText secret c.toJson.render

/-- Reads a part of a token. -/
def readPart {α : Type} (d : Decoder α) (cs : List Char) : Except TokenFlaw α :=
  match partText? cs with
  | none => .error .unreadable
  | some s =>
    match d.run s with
    | .ok a => .ok a
    | .error _ => .error .unreadable

/-- The claims of a token whose signature is right. -/
def read (secret token : String) : Except TokenFlaw Claims := do
  let (message, sig) ← (splitLast token.toList).elim (.error .parts) .ok
  let (head, payload) ← (splitLast message).elim (.error .parts) .ok
  let inUse ← readPart header head
  if !inUse then throw .algorithm
  if sig != signature secret message then throw .signature
  let claims ← readPart Claims.decoder payload
  if ← readPart audience payload then throw .audience
  return claims

/-- The claims of a token that is good now. -/
def validate (secret token : String) (now : Instant) : Except TokenFault Claims :=
  match read secret token with
  | .error flaw => .error (.malformed flaw)
  | .ok claims => (claims.check now).map fun _ => claims

end Token

end Marketplace
