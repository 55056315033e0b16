import Marketplace.Json.Number
set_option autoImplicit false

/-!
# JSON tokens

The lexical level of JSON.  `tokenize` splits a text into tokens and ends in `Token.broken` where no
token starts; `Token.spell` writes a token, and a compact JSON text is the concatenation of the
spellings of its tokens.  Two kinds of token are lexically sound but cannot be read as a value:
a text with an unpaired surrogate, and a number beyond the range of doubles.  They matter only where
a value is asked for; a reader that skips a value passes over them.
-/

namespace Marketplace.Json

/-- A token of a JSON text. -/
inductive Token
  | openArray
  | closeArray
  | openObject
  | closeObject
  | comma
  | colon
  | null
  | bool (b : Bool)
  /-- A number, without a value when it lies beyond the range of doubles. -/
  | number (n : Option Number)
  /-- A text, without a value when an escape names half of a surrogate pair only. -/
  | text (s : Option String)
  /-- No token starts here. -/
  | broken
  deriving DecidableEq, Repr

/-- A blank between tokens. -/
def isSpace (c : Char) : Bool := c == ' ' || c == '\n' || c == '\t' || c == '\r'

/-- The value of a hexadecimal digit. -/
def hexValue? (c : Char) : Option Nat :=
  if '0' ≤ c && c ≤ '9' then some (c.toNat - '0'.toNat)
  else if 'a' ≤ c && c ≤ 'f' then some (c.toNat - 'a'.toNat + 10)
  else if 'A' ≤ c && c ≤ 'F' then some (c.toNat - 'A'.toNat + 10)
  else none

/-- Four hexadecimal digits and what follows them. -/
def hexUnit? : List Char → Option (Nat × List Char)
  | a :: b :: c :: d :: rest => do
    let a ← hexValue? a
    let b ← hexValue? b
    let c ← hexValue? c
    let d ← hexValue? d
    return (((a * 16 + b) * 16 + c) * 16 + d, rest)
  | _ => none

/-- The character that a one-letter escape stands for. -/
def escaped? : Char → Option Char
  | '"' => some '"'
  | '\\' => some '\\'
  | '/' => some '/'
  | 'b' => some '\x08'
  | 'f' => some '\x0c'
  | 'n' => some '\n'
  | 'r' => some '\r'
  | 't' => some '\t'
  | _ => none

/-- A unit of a text literal: a character, or a 16-bit code unit from a numeric escape. -/
inductive Unit16
  | char (c : Char)
  | code (n : Nat)
  deriving DecidableEq, Repr

/-- The code unit is the first half of a surrogate pair. -/
def isHighSurrogate (n : Nat) : Bool := 0xD800 ≤ n && n ≤ 0xDBFF

/-- The code unit is the second half of a surrogate pair. -/
def isLowSurrogate (n : Nat) : Bool := 0xDC00 ≤ n && n ≤ 0xDFFF

/-- The characters of a text literal, nothing if half of a surrogate pair stands alone. -/
def unitsText? : List Unit16 → Option (List Char)
  | [] => some []
  | .char c :: us => (unitsText? us).map (c :: ·)
  | .code n :: us =>
    if isLowSurrogate n then none
    else if isHighSurrogate n then
      match us with
      | .code m :: rest =>
        if isLowSurrogate m then
          (unitsText? rest).map (Char.ofNat (0x10000 + (n - 0xD800) * 0x400 + (m - 0xDC00)) :: ·)
        else none
      | _ => none
    else (unitsText? us).map (Char.ofNat n :: ·)

/-- Scans a text literal after its opening quote.  Control characters and unknown escapes are not
allowed in it. -/
def scanText : Nat → List Char → Option (List Unit16 × List Char)
  | 0, _ => none
  | fuel + 1, cs =>
    match cs with
    | [] => none
    | '"' :: rest => some ([], rest)
    | '\\' :: 'u' :: rest =>
      match hexUnit? rest with
      | some (n, rest) => (scanText fuel rest).map fun r => (.code n :: r.1, r.2)
      | none => none
    | '\\' :: c :: rest =>
      match escaped? c with
      | some c => (scanText fuel rest).map fun r => (.char c :: r.1, r.2)
      | none => none
    | c :: rest =>
      if c == '\\' || c.toNat < 0x20 then none
      else (scanText fuel rest).map fun r => (.char c :: r.1, r.2)

/-- The integer digits at the head: a zero stands alone. -/
def scanWhole : List Char → Option (List Char × List Char)
  | '0' :: rest =>
    match rest with
    | c :: _ => if c.isDigit then none else some (['0'], rest)
    | [] => some (['0'], [])
  | cs =>
    let ds := cs.takeWhile Char.isDigit
    if ds.isEmpty then none else some (ds, cs.dropWhile Char.isDigit)

/-- A fraction at the head, if a point stands there; the point needs a digit after it. -/
def scanFraction : List Char → Option (Option (List Char) × List Char)
  | '.' :: rest =>
    let ds := rest.takeWhile Char.isDigit
    if ds.isEmpty then none else some (some ds, rest.dropWhile Char.isDigit)
  | cs => some (none, cs)

/-- The digits of an exponent after its sign. -/
def scanExponentDigits (negative : Bool) (cs : List Char) :
    Option (Option (Bool × List Char) × List Char) :=
  let ds := cs.takeWhile Char.isDigit
  if ds.isEmpty then none else some (some (negative, ds), cs.dropWhile Char.isDigit)

/-- An exponent after its letter. -/
def scanExponentSign : List Char → Option (Option (Bool × List Char) × List Char)
  | '+' :: cs => scanExponentDigits false cs
  | '-' :: cs => scanExponentDigits true cs
  | cs => scanExponentDigits false cs

/-- An exponent at the head, if its letter stands there. -/
def scanExponent : List Char → Option (Option (Bool × List Char) × List Char)
  | 'e' :: cs => scanExponentSign cs
  | 'E' :: cs => scanExponentSign cs
  | cs => some (none, cs)

/-- Scans a number after its sign. -/
def scanNumber (negative : Bool) (cs : List Char) : Option (Number.Literal × List Char) := do
  let (whole, cs) ← scanWhole cs
  let (fraction, cs) ← scanFraction cs
  let (exponent, cs) ← scanExponent cs
  return (⟨negative, whole, fraction, exponent⟩, cs)

/-- A number token after its sign. -/
def numberToken? (negative : Bool) (cs : List Char) : Option (Token × List Char) :=
  (scanNumber negative cs).map fun r => (.number (Number.ofLiteral r.1), r.2)

/-- The token at the head of a list that starts with no blank. -/
def nextToken? : List Char → Option (Token × List Char)
  | '[' :: cs => some (.openArray, cs)
  | ']' :: cs => some (.closeArray, cs)
  | '{' :: cs => some (.openObject, cs)
  | '}' :: cs => some (.closeObject, cs)
  | ',' :: cs => some (.comma, cs)
  | ':' :: cs => some (.colon, cs)
  | '"' :: cs =>
    (scanText (cs.length + 1) cs).map fun r => (.text ((unitsText? r.1).map String.ofList), r.2)
  | '-' :: cs => numberToken? true cs
  | 'n' :: 'u' :: 'l' :: 'l' :: cs => some (.null, cs)
  | 't' :: 'r' :: 'u' :: 'e' :: cs => some (.bool true, cs)
  | 'f' :: 'a' :: 'l' :: 's' :: 'e' :: cs => some (.bool false, cs)
  | cs => numberToken? false cs

/-- Splits characters into tokens; the fuel bounds their number. -/
def tokenizeChars : Nat → List Char → List Token
  | 0, _ => []
  | fuel + 1, cs =>
    match cs.dropWhile isSpace with
    | [] => []
    | cs =>
      match nextToken? cs with
      | some (t, rest) => t :: tokenizeChars fuel rest
      | none => [.broken]

/-- The tokens of a text. -/
def tokenize (s : String) : List Token :=
  let cs := s.toList
  tokenizeChars cs.length cs

/-- The four hexadecimal digits of a control character. -/
def hexQuad (n : Nat) : List Char :=
  [0x1000, 0x100, 0x10, 1].map fun p => Nat.digitChar (n / p % 16)

/-- Writes one character of a text literal. -/
def spellChar (c : Char) : List Char :=
  if c == '"' then ['\\', '"']
  else if c == '\\' then ['\\', '\\']
  else if c == '\n' then ['\\', 'n']
  else if c == '\r' then ['\\', 'r']
  else if c == '\t' then ['\\', 't']
  else if c == '\x08' then ['\\', 'b']
  else if c == '\x0c' then ['\\', 'f']
  else if c.toNat < 0x20 then '\\' :: 'u' :: hexQuad c.toNat
  else [c]

/-- Writes a text literal. -/
def spellText (s : String) : List Char :=
  '"' :: (s.toList.flatMap spellChar ++ ['"'])

/-- Writes a token. -/
def Token.spell : Token → List Char
  | .openArray => ['[']
  | .closeArray => [']']
  | .openObject => ['{']
  | .closeObject => ['}']
  | .comma => [',']
  | .colon => [':']
  | .null => ['n', 'u', 'l', 'l']
  | .bool true => ['t', 'r', 'u', 'e']
  | .bool false => ['f', 'a', 'l', 's', 'e']
  | .number (some n) => n.text.toList
  | .text (some s) => spellText s
  | .number none | .text none | .broken => []

/-- Writes tokens one after the other. -/
def spellTokens (ts : List Token) : String := String.ofList (ts.flatMap Token.spell)

end Marketplace.Json
