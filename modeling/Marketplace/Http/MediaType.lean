set_option autoImplicit false

/-!
# Media types

A media type has a type, a subtype with a suffix behind its last `+`, and parameters.  Bodies are
read as JSON if the subtype or the suffix says so.
-/

namespace Marketplace

/-- A media type without its parameters. -/
structure MediaType where
  type : String
  subtype : String
  suffix : Option String
  deriving DecidableEq, Repr

namespace MediaType

/-- A character of a name. -/
def isTokenChar (c : Char) : Bool := c.isAlphanum || "!#$%&'*+-.^_\x60|~".toList.contains c

/-- A character between quotes, a quote apart. -/
def isQuotedChar (c : Char) : Bool := 31 < c.toNat && c.toNat < 127

/-- What follows a quoted value after its opening quote, and the semicolon behind it. -/
def afterQuoted? : List Char → Option (List Char)
  | '"' :: ';' :: rest => some rest
  | '"' :: rest => some rest
  | '\\' :: c :: rest => if isQuotedChar c then afterQuoted? rest else none
  | c :: rest => if isQuotedChar c && c != '\\' then afterQuoted? rest else none
  | [] => none

/-- What follows a parameter and the semicolon behind it. -/
def afterParameter? (cs : List Char) : Option (List Char) :=
  let name := cs.takeWhile isTokenChar
  match cs.dropWhile isTokenChar with
  | '=' :: '"' :: rest => if name.isEmpty then none else afterQuoted? rest
  | '=' :: rest =>
    let value := rest.takeWhile isTokenChar
    match rest.dropWhile isTokenChar with
    | [] => if name.isEmpty then none else some []
    | ';' :: rest => if name.isEmpty || value.isEmpty then none else some rest
    | _ => none
  | _ => none

/-- The characters are parameters; the fuel bounds their number. -/
def areParameters : Nat → List Char → Bool
  | _, [] => true
  | 0, _ => false
  | fuel + 1, ' ' :: rest => areParameters fuel rest
  | fuel + 1, cs =>
    match afterParameter? cs with
    | some rest => areParameters fuel rest
    | none => false

/-- The text up to the last plus sign and the text after it. -/
def splitSuffix (cs : List Char) : List Char × Option (List Char) :=
  match cs.drop 1 |>.reverse.dropWhile (· != '+') with
  | _ :: kept =>
    (cs.take (1 + kept.length), some (cs.drop (2 + kept.length)))
  | [] => (cs, none)

/-- The name in small letters. -/
def nameText (cs : List Char) : String := (String.ofList cs).map Char.toLower

/-- Reads a media type with its parameters. -/
def parse? (s : String) : Option MediaType :=
  let type := s.toList.takeWhile isTokenChar
  match s.toList.dropWhile isTokenChar with
  | '/' :: rest =>
    let name := rest.takeWhile isTokenChar
    let (subtype, suffix) := splitSuffix name
    let result : MediaType := ⟨nameText type, nameText subtype, suffix.map nameText⟩
    match type.isEmpty, rest.dropWhile isTokenChar with
    | false, [] => some result
    | false, ';' :: parameters =>
      if !name.isEmpty && areParameters parameters.length parameters then some result else none
    | _, _ => none
  | _ => none

/-- The media type is one of JSON. -/
def isJson (m : MediaType) : Bool :=
  m.type == "application" && (m.subtype == "json" || m.suffix == some "json")

end MediaType

end Marketplace
