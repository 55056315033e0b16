import Marketplace.Text.Blank
import Marketplace.Text.LetterTable
set_option autoImplicit false

/-!
# Files of variables

A file gives variables that are not set yet, one `NAME=value` per line.  A value may stand in
quotes, in which it may go on over several lines; `$NAME` stands for another variable except in
single quotes, a backslash takes the meaning from what follows it, and a number sign behind a blank
begins a comment.  Lines are read one after the other up to the first one that is faulty, and the
variables before it stay.
-/

namespace Marketplace

/-- The variables with their values. -/
abbrev Variables := List (String × String)

namespace VariableFile

/-- Where the reading of a line stands: at its beginning or in a value, behind a blank, behind a
backslash, or in quotes. -/
inductive Place
  | text
  | blank
  | escape
  | strong
  | strongEscape
  | weak
  | weakEscape
  deriving DecidableEq, Repr

/-- How a line ends: at a place, or in a comment that begins after so many characters. -/
inductive LineEnd
  | place (p : Place)
  | comment (start : Nat)
  deriving DecidableEq, Repr

/-- The place after a character that follows no backslash and stands in no quotes. -/
def opened : Char → Option Place
  | '\\' => some .escape
  | '"' => some .weak
  | '\x27' => some .strong
  | _ => none

/-- Reads through a line. -/
def lineEnd : Place → Nat → List Char → LineEnd
  | p, _, [] => .place p
  | .blank, n, c :: cs =>
    if c == '#' then .comment n else lineEnd ((opened c).getD .text) (n + 1) cs
  | .text, n, c :: cs =>
    if Text.isBlank c && c != '\n' && c != '\r' then lineEnd .blank (n + 1) cs
    else lineEnd ((opened c).getD .text) (n + 1) cs
  | .escape, n, _ :: cs => lineEnd .text (n + 1) cs
  | .weak, n, c :: cs =>
    lineEnd (if c == '\\' then .weakEscape else if c == '"' then .text else .weak) (n + 1) cs
  | .weakEscape, n, _ :: cs => lineEnd .weak (n + 1) cs
  | .strong, n, c :: cs =>
    lineEnd (if c == '\\' then .strongEscape else if c == '\x27' then .text else .strong) (n + 1) cs
  | .strongEscape, n, _ :: cs => lineEnd .strong (n + 1) cs

/-- The lines of a text with the newlines that end them. -/
def lines : List Char → List (List Char)
  | [] => []
  | c :: cs =>
    if c == '\n' then [c] :: lines cs
    else
      match lines cs with
      | l :: ls => (c :: l) :: ls
      | [] => [[c]]

/-- The line without the newline at its end. -/
def withoutNewline (cs : List Char) : List Char :=
  match cs.reverse with
  | '\n' :: '\r' :: rest | '\n' :: rest => rest.reverse
  | _ => cs

/-- The entries of a file: lines that belong together are joined, and comments are left out.  A file
that ends within quotes ends with its last entry before them. -/
def entries : Place → List Char → List (List Char) → List (List Char)
  | _, _, [] => []
  | p, seen, l :: ls =>
    if (Text.dropBlanks (seen ++ l)).head? == some '#' then [] :: entries .text [] ls
    else
      match lineEnd p 0 l with
      | .comment n => (seen ++ l.take n) :: entries .text [] ls
      | .place .text => withoutNewline (seen ++ l) :: entries .text [] ls
      | .place q => entries q (seen ++ l) ls

/-! ## Values -/

/-- What a value stands in the middle of. -/
inductive Within
  | nothing
  /-- A name behind a dollar sign. -/
  | name
  /-- A name in braces behind a dollar sign. -/
  | braces
  deriving DecidableEq, Repr

/-- A value that has been read in part. -/
structure PartialValue where
  strong : Bool
  weak : Bool
  escaped : Bool
  /-- Only blanks and a comment may follow. -/
  ended : Bool
  /-- A comment has begun. -/
  comment : Bool
  within : Within
  name : List Char
  output : List Char
  deriving DecidableEq, Repr

namespace PartialValue

/-- Nothing has been read. -/
def start : PartialValue := ⟨false, false, false, false, false, .nothing, [], []⟩

/-- The value with another character. -/
def push (v : PartialValue) (c : Char) : PartialValue := { v with output := v.output ++ [c] }

/-- The value of a variable; one that is not set has none. -/
def resolve (vars : Variables) (name : List Char) : List Char :=
  ((vars.lookup (String.ofList name)).getD "").toList

/-- Puts the value of the named variable in place. -/
def substitute (vars : Variables) (v : PartialValue) : PartialValue :=
  { v with output := v.output ++ resolve vars v.name, name := [], within := .nothing }

/-- What a character behind a backslash stands for. -/
def escape? (c : Char) : Option Char :=
  if c == 'n' then some '\n'
  else if c == '\\' || c == '\x27' || c == '"' || c == '$' || c == ' ' then some c
  else none

/-- Goes on in the name of a variable. -/
def stepName (vars : Variables) (v : PartialValue) (c : Char) : PartialValue :=
  if Text.isLetterOrNumber c then { v with name := v.name ++ [c] }
  else
    match v.within with
    | .braces =>
      if c == '\x7d' then v.substitute vars else { v with name := v.name ++ [c] }
    | _ =>
      if c == '\x7b' && v.name.isEmpty then { v with within := .braces }
      else if c == '$' then { v.substitute vars with within := .name }
      else (v.substitute vars).push c

/-- Goes on outside of names. -/
def stepText (v : PartialValue) (c : Char) : PartialValue :=
  if c == '$' then { v with within := .name }
  else if c == '\\' then { v with escaped := true }
  else if v.weak then if c == '"' then { v with weak := false } else v.push c
  else if c == '\x27' then { v with strong := true }
  else if c == '"' then { v with weak := true }
  else if c == ' ' || c == '\t' then { v with ended := true }
  else v.push c

/-- Goes on with a character; `none` if it cannot stand there. -/
def step? (vars : Variables) (v : PartialValue) (c : Char) : Option PartialValue :=
  if v.comment then some v
  else if v.ended then
    if c == ' ' || c == '\t' then some v
    else if c == '#' then some { v with comment := true }
    else none
  else if v.escaped then (escape? c).map fun e => { v.push e with escaped := false }
  else if v.strong then
    some (if c == '\x27' then { v with strong := false } else v.push c)
  else if v.within != .nothing then some (v.stepName vars c)
  else some (v.stepText c)

/-- The whole value, unless quotes or braces are still open. -/
def finish? (vars : Variables) (v : PartialValue) : Option String :=
  if v.within == .braces || v.strong || v.weak then none
  else some (String.ofList (v.substitute vars).output)

end PartialValue

/-- Reads a value. -/
def value? (vars : Variables) (cs : List Char) : Option String := do
  (← cs.foldlM (PartialValue.step? vars) PartialValue.start).finish? vars

/-! ## Entries -/

/-- What an entry says. -/
inductive Entry
  | nothing
  | assignment (name value : String)
  deriving DecidableEq, Repr

/-- Reads a name and gives what follows it and its blanks. -/
def name? (cs : List Char) : Option (String × List Char) :=
  let isNameChar (c : Char) := c.isAlphanum || c == '_' || c == '.'
  if cs.head?.any fun c => c.isAlpha || c == '_' then
    some (String.ofList (cs.takeWhile isNameChar), Text.dropBlanks (cs.dropWhile isNameChar))
  else none

/-- What follows an equals sign and its blanks. -/
def afterEquals? : List Char → Option (List Char)
  | '=' :: rest => some (Text.dropBlanks rest)
  | _ => none

/-- Reads the name of an entry, which the word `export` may precede, and what follows its equals
sign. -/
def left? (cs : List Char) : Option (String × List Char) := do
  let (name, rest) ← name? cs
  match name == "export", afterEquals? rest with
  | true, none =>
    let (name, rest) ← name? rest
    return (name, ← afterEquals? rest)
  | _, after => return (name, ← after)

/-- Reads an entry. -/
def entry? (vars : Variables) (cs : List Char) : Option Entry := do
  match Text.trimChars cs with
  | [] | '#' :: _ => return .nothing
  | cs =>
    let (name, rest) ← left? cs
    match rest with
    | [] | '#' :: _ => return .assignment name ""
    | rest => return .assignment name (← value? vars rest)

/-- Sets the variables of the entries that are not set yet. -/
def setAll : Variables → List (List Char) → Variables
  | vars, [] => vars
  | vars, cs :: rest =>
    match entry? vars cs with
    | none => vars
    | some .nothing => setAll vars rest
    | some (.assignment name value) =>
      setAll (if (vars.lookup name).isSome then vars else vars ++ [(name, value)]) rest

/-- Sets the variables of a file that are not set yet. -/
def load (vars : Variables) (file : String) : Variables :=
  let cs := match file.toList with
    | '\ufeff' :: rest => rest
    | cs => cs
  setAll vars (entries .text [] (lines cs))

end VariableFile

end Marketplace
