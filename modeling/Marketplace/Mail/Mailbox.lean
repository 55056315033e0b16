import Marketplace.Net.Address
import Marketplace.Text.Blank
import Marketplace.Text.LetterTable
set_option autoImplicit false

/-!
# Mailboxes

The address of a message as people write it: a local part and a domain around `@`, alone or in angle
brackets behind a name.  What has the form of an address must also keep the limits of its parts.
-/

namespace Marketplace

open Text (Reader)

/-- An address, with a name if there is one. -/
structure Mailbox where
  name : Option String
  localPart : String
  domain : String
  deriving DecidableEq, Repr

namespace Mailbox

/-- The marks that atoms hold beside letters and digits. -/
def atomMarks : List Char :=
  ['!', '#', '$', '%', '&', '\x27', '*', '+', '-', '/', '=', '?', '^', '_', '\x60', '\x7b', '|',
    '\x7d', '~']

/-- The character lies beyond ASCII. -/
def isBeyondAscii (c : Char) : Bool := 128 ≤ c.toNat

/-- A character of an atom. -/
def isAtomChar (c : Char) : Bool := c.isAlphanum || atomMarks.contains c || isBeyondAscii c

/-- A space or a tab. -/
def isSpace (c : Char) : Bool := c == ' ' || c == '\t'

/-- A character that stands for itself between quotes. -/
def isQuotedChar (c : Char) : Bool :=
  let n := c.toNat
  n == 33 || (35 ≤ n && n ≤ 91) || (93 ≤ n && n ≤ 127) || (1 ≤ n && n ≤ 8) || n == 11 || n == 12 ||
    (14 ≤ n && n ≤ 31) || isBeyondAscii c

/-- A character that may stand behind a backslash. -/
def isEscapable (c : Char) : Bool :=
  let n := c.toNat
  1 ≤ n && n ≤ 127 && n != 10 && n != 13

/-! ## The form of an address -/

/-- Spaces, of which the first counts. -/
def spaces : Reader (List Char) := return (← Reader.takeWhile isSpace).take 1

/-- A run of atom characters. -/
def atomText : Reader (List Char) := Reader.takeWhile1 isAtomChar

/-- Spaces and a run of atom characters. -/
def atom : Reader (List Char) := do
  let s ← spaces
  return s ++ (← atomText)

/-- A point and a run of atom characters. -/
def pointed : Reader (List Char) := do
  Reader.exactly '.'
  return '.' :: (← atomText)

/-- Atoms with points between them. -/
def dotAtom : Reader (List Char) := do
  let a ← atom
  return a ++ (← Reader.repeated pointed).flatten

/-- A character between quotes. -/
def quotedChar : Reader Char :=
  Reader.char isQuotedChar <|> (do Reader.exactly '\\'; Reader.char isEscapable)

/-- Spaces and a character between quotes. -/
def quotedPart : Reader (List Char) := do
  let s ← spaces
  return s ++ [← quotedChar]

/-- A text in quotes, without these. -/
def quoted : Reader (List Char) := do
  Reader.exactly '"'
  let parts ← Reader.repeated quotedPart
  discard (Reader.takeWhile Text.isBlank)
  Reader.exactly '"'
  return parts.flatten

/-- A part of a name. -/
def word : Reader (List Char) := quoted <|> atom

/-- A name: words, with points between or behind them. -/
def phrase : Reader (List Char) := do
  let w ← word
  let more ← Reader.repeated (word <|> (do Reader.exactly '.'; pure ['.']))
  return w ++ more.flatten

/-- A local part and a domain. -/
def address : Reader (String × String) := do
  let l ← dotAtom <|> quoted
  Reader.exactly '@'
  let d ← dotAtom
  return (String.ofList l, String.ofList d)

/-- An address in angle brackets. -/
def bracketed : Reader (String × String) := do
  discard (Reader.takeWhile Text.isBlank)
  Reader.exactly '<'
  let a ← address
  Reader.exactly '>'
  discard (Reader.takeWhile Text.isBlank)
  return a

/-- A reader that may find nothing. -/
def optional (r : Reader (List Char)) : Reader (Option (List Char)) := some <$> r <|> pure none

/-- A name and an address in brackets. -/
def named : Reader Mailbox := do
  let name ← optional phrase
  let (l, d) ← bracketed
  return ⟨name.map String.ofList, l, d⟩

/-- An address alone. -/
def bare : Reader Mailbox := do
  let (l, d) ← address
  return ⟨none, l, d⟩

/-- A name with an address or an address alone, up to the end of the text. -/
def reader : Reader Mailbox :=
  (do
    let m ← named <|> bare
    if (← get).isEmpty then return m else failure)

/-! ## The limits of its parts -/

/-- The most bytes of a local part. -/
def maxLocalPart : Nat := 64

/-- The most bytes of a domain. -/
def maxDomain : Nat := 254

/-- The most bytes between two points of a domain. -/
def maxLabel : Nat := 63

/-- A character of an atom that is neither a symbol nor a blank beyond ASCII. -/
def isPlainAtomChar (c : Char) : Bool := Text.isLetterOrNumber c || atomMarks.contains c

/-- The characters form an atom. -/
def isAtom (cs : List Char) : Bool := !cs.isEmpty && cs.all isPlainAtomChar

/-- The parts of a list between points. -/
def labels (cs : List Char) : List (List Char) := cs.splitOn '.'

/-- The number of bytes. -/
def byteLength (cs : List Char) : Nat := (String.ofList cs).utf8ByteSize

/-- The local part is sound. -/
def isLocalPart (s : String) : Bool :=
  s.utf8ByteSize ≤ maxLocalPart && (labels s.toList).all isAtom

/-- The domain is sound as it stands. -/
def isPlainDomain (cs : List Char) : Bool :=
  !cs.isEmpty && byteLength cs ≤ maxDomain &&
    (labels cs).all fun l => byteLength l ≤ maxLabel && isAtom l

/-- The character stands for a point in domains. -/
def isPoint (c : Char) : Bool := c == '\u3002' || c == '\uff0e' || c == '\uff61'

/-- A character that a domain keeps when it is brought into ASCII; a symbol then takes letters. -/
def plainForm (c : Char) : Char :=
  if isPoint c then '.' else if isBeyondAscii c && !Text.isBlank c then 'x' else c

/-- The domain is sound, as it stands or when it is brought into ASCII. -/
def isDomain (s : String) : Bool :=
  isPlainDomain s.toList || isPlainDomain (s.toList.map plainForm)

/-- Reads an address that is sound in form and limits. -/
def parse? (s : String) : Option Mailbox :=
  match reader.readAll? s with
  | some m => if isLocalPart m.localPart && isDomain m.domain then some m else none
  | none => none

end Mailbox

end Marketplace
