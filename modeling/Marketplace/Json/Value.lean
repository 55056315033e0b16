import Marketplace.Json.Token
set_option autoImplicit false

/-!
# JSON values

Values of JSON as trees.  Objects are lists of members; `Value.member?` is their view, and
`Value.object` builds one in which every name occurs once, the last member of a name winning.
-/

namespace Marketplace.Json

/-- A value of JSON. -/
inductive Value
  | null
  | bool (b : Bool)
  | number (n : Number)
  | text (s : String)
  | array (items : List Value)
  | object (members : List (String × Value))
  deriving Repr, Inhabited

namespace Value

/-- Sets the member of a name, keeping the place of one that is there already. -/
def setMember (name : String) (v : Value) : List (String × Value) → List (String × Value)
  | [] => [(name, v)]
  | (k, w) :: ms => if k == name then (name, v) :: ms else (k, w) :: setMember name v ms

/-- The members with every name once, the last of a name winning. -/
def uniqueMembers (ms : List (String × Value)) : List (String × Value) :=
  ms.foldl (fun acc m => setMember m.1 m.2 acc) []

/-- The member of a name. -/
def lookup (name : String) : List (String × Value) → Option Value
  | [] => none
  | (k, v) :: ms => if k == name then some v else lookup name ms

/-- The member of a name, if the value is an object that has it. -/
def member? (v : Value) (name : String) : Option Value :=
  match v with
  | .object ms => lookup name ms
  | _ => none

/-- The value is `null`. -/
def isNull : Value → Bool
  | .null => true
  | _ => false

/-- An integer. -/
def int (n : Int) : Value := .number (.int n)

/-- A natural number. -/
def nat (n : Nat) : Value := .number (.int n)

/-- A value that may be missing, written as `null` then. -/
def ofOption {α : Type} (f : α → Value) : Option α → Value
  | some a => f a
  | none => .null

/-- The tokens between the elements of a list, with commas. -/
def separated : List (List Token) → List Token
  | [] => []
  | [ts] => ts
  | ts :: rest => ts ++ .comma :: separated rest

mutual

/-- The tokens of a value. -/
def tokens : Value → List Token
  | .null => [.null]
  | .bool b => [.bool b]
  | .number n => [.number (some n)]
  | .text s => [.text (some s)]
  | .array vs => .openArray :: (separated (itemTokens vs) ++ [.closeArray])
  | .object ms => .openObject :: (separated (memberTokens ms) ++ [.closeObject])

/-- The tokens of each item. -/
def itemTokens : List Value → List (List Token)
  | [] => []
  | v :: vs => tokens v :: itemTokens vs

/-- The tokens of each member: its name, a colon and its value. -/
def memberTokens : List (String × Value) → List (List Token)
  | [] => []
  | (k, v) :: ms => (.text (some k) :: .colon :: tokens v) :: memberTokens ms

end

/-- The compact text of a value. -/
def render (v : Value) : String := spellTokens v.tokens

end Value

end Marketplace.Json
