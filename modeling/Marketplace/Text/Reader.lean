set_option autoImplicit false

/-!
# Readers of text

A reader takes a value from the head of a list of characters or fails.  Readers are put together in
sequence and by choice; a choice takes the first reader that does not fail and keeps to it.
-/

namespace Marketplace.Text

/-- Takes a value from the head of a list of characters. -/
abbrev Reader := StateT (List Char) Option

namespace Reader

variable {α : Type}

/-- A character of a class. -/
def char (p : Char → Bool) : Reader Char := fun cs =>
  match cs with
  | c :: rest => if p c then some (c, rest) else none
  | [] => none

/-- One certain character. -/
def exactly (c : Char) : Reader Unit := discard (char (· == c))

/-- All characters of a class that stand at the head. -/
def takeWhile (p : Char → Bool) : Reader (List Char) := fun cs =>
  some (cs.takeWhile p, cs.dropWhile p)

/-- All characters of a class that stand at the head, at least one. -/
def takeWhile1 (p : Char → Bool) : Reader (List Char) := do
  let cs ← takeWhile p
  if cs.isEmpty then failure else return cs

/-- What the reader takes as often as it can, at most `fuel` times. -/
def many (r : Reader α) : Nat → Reader (List α)
  | 0 => pure []
  | fuel + 1 => (do
      let a ← r
      let as ← many r fuel
      pure (a :: as)) <|> pure []

/-- What the reader takes as often as it can; each time it takes a character at least. -/
def repeated (r : Reader α) : Reader (List α) := do many r (← get).length

/-- Reads a whole text. -/
def readAll? (r : Reader α) (s : String) : Option α :=
  match r s.toList with
  | some (a, []) => some a
  | _ => none

end Reader

end Marketplace.Text
