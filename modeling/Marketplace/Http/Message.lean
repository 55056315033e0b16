import Marketplace.Json.Decoder
import Marketplace.Refusal
import Marketplace.Text.Utf8
set_option autoImplicit false

/-!
# Requests and responses

What a client sends over HTTP and what comes back, as far as it matters here.
-/

namespace Marketplace

/-- The method of a request. -/
inductive HttpMethod
  | get
  | head
  | post
  | put
  | delete
  | options
  | other (name : String)
  deriving DecidableEq, Repr

/-- Reads the name of a method. -/
def HttpMethod.ofName : String → HttpMethod
  | "GET" => .get
  | "HEAD" => .head
  | "POST" => .post
  | "PUT" => .put
  | "DELETE" => .delete
  | "OPTIONS" => .options
  | name => .other name

/-- The value of a header.  Its octets need not be text: a client may send any of them but controls,
and only visible ASCII is ever read. -/
structure HeaderValue where
  octets : List UInt8
  deriving DecidableEq, Repr

namespace HeaderValue

/-- The octet is a visible character of ASCII, a space or a tab. -/
def isVisible (b : UInt8) : Bool := (32 ≤ b && b < 127) || b == 9

/-- The text of the value, if all of it is visible. -/
def text? (h : HeaderValue) : Option String :=
  if h.octets.all isVisible then
    some (String.ofList (h.octets.map fun b => Char.ofNat b.toNat))
  else none

/-- The value that is sent for a text, which is its UTF-8. -/
def ofText (s : String) : HeaderValue := ⟨s.toList.flatMap String.utf8EncodeChar⟩

end HeaderValue

/-- The body of a request.  Its octets need not be text either. -/
structure HttpContent where
  octets : List UInt8
  deriving DecidableEq, Repr

namespace HttpContent

/-- What stands for octets that are no character when a body is read as JSON.  In a text literal it
holds an escape that denotes no character, and elsewhere it begins no token.  The letter in front
keeps it out of an escape that has been begun before it. -/
def noCharacter : List Char := ['u', '\\', 'u', 'd', 'c', '0', '0']

/-- The text that the body is read as. -/
def text (b : HttpContent) : String :=
  String.ofList ((Text.readUtf8 b.octets.length b.octets).flatMap fun
    | some c => [c]
    | none => noCharacter)

/-- The body that is sent for a text, which is its UTF-8. -/
def ofText (s : String) : HttpContent := ⟨s.toList.flatMap String.utf8EncodeChar⟩

/-- A body of nothing. -/
def empty : HttpContent := ⟨[]⟩

end HttpContent

/-- A request.  Of a header that is repeated, the first value counts. -/
structure HttpRequest where
  method : HttpMethod
  path : String
  query : String
  authorization : Option HeaderValue
  contentType : Option HeaderValue
  body : HttpContent
  deriving DecidableEq, Repr

/-- What a response carries. -/
inductive HttpBody
  | json (v : Json.Value)
  | text (s : String)
  deriving Repr

/-- A response. -/
structure HttpResponse where
  status : Nat
  body : HttpBody
  deriving Repr

namespace HttpRequest

/-- The path of a target; what follows a question mark or a number sign does not belong to it. -/
def targetPath (target : String) : String :=
  String.ofList (target.toList.takeWhile fun c => c != '?' && c != '#')

/-- The query of a target: what stands behind the first question mark, up to a number sign. -/
def targetQuery (target : String) : String :=
  String.ofList (((target.toList.takeWhile (· != '#')).dropWhile (· != '?')).drop 1)

/-- A request for a target. -/
def ofTarget (method : HttpMethod) (target : String)
    (authorization contentType : Option HeaderValue) (body : HttpContent) : HttpRequest :=
  ⟨method, targetPath target, targetQuery target, authorization, contentType, body⟩

/-- A request for the root that carries nothing. -/
def blank : HttpRequest := ⟨.get, "/", "", none, none, .empty⟩

/-- Reads the JSON form, in which the target stands as one text. -/
def decoder : Json.Decoder HttpRequest :=
  .record blank [
    .required "method" .text fun v r => { r with method := .ofName v },
    .required "path" .text fun v r => { r with path := targetPath v, query := targetQuery v },
    .nullable "authorization" .text fun v r => { r with authorization := v.map .ofText },
    .nullable "content_type" .text fun v r => { r with contentType := v.map .ofText },
    .nullable "body" .text fun v r => { r with body := .ofText (v.getD "") }]

end HttpRequest

namespace HttpResponse

/-- A response without content. -/
def bare (status : Nat) : HttpResponse := ⟨status, .text ""⟩

/-- A response that carries JSON. -/
def json (status : Nat) (v : Json.Value) : HttpResponse := ⟨status, .json v⟩

/-- The response that tells of a refusal. -/
def ofRefusal (r : Refusal) : HttpResponse := json r.kind.httpStatus r.toJson

/-- The JSON form. -/
def toJson (r : HttpResponse) : Json.Value :=
  .object [("code", .nat r.status), match r.body with
    | .json v => ("body", v)
    | .text s => ("text", .text s)]

/-- The response without its content, as is due to a request for the head only. -/
def withoutContent (r : HttpResponse) : HttpResponse := { r with body := .text "" }

end HttpResponse

end Marketplace
