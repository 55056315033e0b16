import Marketplace.Yaml.Cursor
set_option autoImplicit false

/-!
# From characters to YAML tokens

Tokens are taken one by one.  Indentation turns into tokens that open and close blocks, and a
mapping key without an indicator is found late: when its colon comes, the key token is put before
what has been read since.  `tokenize` gives the tokens up to the first fault; those that might still
have become a key when the fault came are left out, for nobody can tell what they are.
-/

namespace Marketplace.Yaml

/-- A place where a key without an indicator may have started. -/
structure PossibleKey where
  /-- Nothing but a key may start here. -/
  required : Bool
  /-- How many tokens stand before the key. -/
  position : Nat
  index : Nat
  line : Nat
  column : Nat
  deriving DecidableEq, Repr

/-- The state of the lexer.  Tokens stand newest first, and the possible keys of the flow
collections around the cursor innermost first. -/
structure Lexer where
  cursor : Cursor
  flowDepth : Nat
  indent : Int
  outerIndents : List Int
  keyAllowed : Bool
  possibleKeys : List (Option PossibleKey)
  tokens : List Token
  count : Nat
  deriving DecidableEq, Repr

namespace Lexer

/-- The state at the start of a stream. -/
def start (cs : List Char) : Lexer :=
  ⟨⟨cs, 0, 0, 0⟩, 0, -1, [], true, [none], [], 0⟩

/-- The cursor stands in a flow collection. -/
def inFlow (s : Lexer) : Bool := s.flowDepth != 0

/-- Appends a token. -/
def push (t : Token) (s : Lexer) : Lexer :=
  { s with tokens := t :: s.tokens, count := s.count + 1 }

/-- Inserts a token that has `position` tokens before it. -/
def insertAt (position : Nat) (t : Token) (s : Lexer) : Lexer :=
  let n := s.count - position
  { s with tokens := s.tokens.take n ++ t :: s.tokens.drop n, count := s.count + 1 }

/-- Allows or forbids a key to start at the next token. -/
def allowKey (b : Bool) (s : Lexer) : Lexer := { s with keyAllowed := b }

/-- Moves the cursor. -/
def moveTo (c : Cursor) (s : Lexer) : Lexer := { s with cursor := c }

/-- The possible key is too far back: on another line, or more than 1024 characters away. -/
def isStale (c : Cursor) (k : PossibleKey) : Bool :=
  k.line < c.line || k.index + 1024 < c.index

/-- Drops the possible keys that are too far back; one that is required may not be among them. -/
def dropStale (s : Lexer) : Option Lexer :=
  if s.possibleKeys.any fun k => k.any fun k => isStale s.cursor k && k.required then none
  else some { s with possibleKeys := s.possibleKeys.map (·.filter fun k => !isStale s.cursor k) }

/-- Drops the possible key of the innermost collection, unless it is required. -/
def dropKey (s : Lexer) : Option Lexer :=
  match s.possibleKeys with
  | some k :: ks => if k.required then none else some { s with possibleKeys := none :: ks }
  | _ => some s

/-- Notes that a key may start here. -/
def noteKey (s : Lexer) : Option Lexer :=
  if s.keyAllowed then
    let required := !s.inFlow && s.indent == (s.cursor.column : Int)
    let k : PossibleKey :=
      ⟨required, s.count, s.cursor.index, s.cursor.line, s.cursor.column⟩
    s.dropKey.map fun s => { s with possibleKeys := some k :: s.possibleKeys.tail }
  else some s

/-- Opens a block at a column that lies further right than the current one. -/
def openBlock (column : Nat) (position : Option Nat) (t : Token) (s : Lexer) : Lexer :=
  if !s.inFlow && s.indent < (column : Int) then
    let s := { s with outerIndents := s.indent :: s.outerIndents, indent := column }
    match position with
    | some p => s.insertAt p t
    | none => s.push t
  else s

/-- Closes the blocks that lie further right than the column. -/
def closeBlocksTo (column : Int) : List Int → Lexer → Lexer
  | [], s => s
  | outer :: rest, s =>
    if column < s.indent then
      closeBlocksTo column rest ({ s with indent := outer, outerIndents := rest }.push .blockEnd)
    else s

/-- Closes the blocks that lie further right than the column, outside flow collections. -/
def closeBlocks (column : Int) (s : Lexer) : Lexer :=
  if s.inFlow then s else closeBlocksTo column s.outerIndents s

/-- Passes blanks, comments and line breaks up to the next token.  A tab may stand before a token
only where no key can start. -/
def toNextToken : Nat → Lexer → Lexer
  | 0, s => s
  | fuel + 1, s =>
    let c := s.cursor
    let c := if c.index == 0 && c.head == '\ufeff' then c.skip else c
    let tabs := s.inFlow || !s.keyAllowed
    let c := c.skipWhile fun d => d == ' ' || (tabs && d == '\t')
    let c := if c.head == '#' then c.skipWhile (fun d => !isBreakOrEnd d) else c
    if isBreak c.head then
      let s := s.moveTo c.skipLine
      toNextToken fuel (if s.inFlow then s else s.allowKey true)
    else s.moveTo c

/-! ## Directives, anchors and tags -/

/-- A number of at most nine digits. -/
def scanVersionNumber (c : Cursor) : Option (Nat × Cursor) :=
  let ds := c.run Char.isDigit
  if ds.isEmpty || 9 < ds.length then none
  else some (ds.foldl (fun n d => 10 * n + (d.toNat - '0'.toNat)) 0, c.skipWhile Char.isDigit)

/-- The version of a version directive. -/
def scanVersion (c : Cursor) : Option (Token × Cursor) := do
  let (major, c) ← scanVersionNumber (c.skipWhile isBlank)
  if c.head == '.' then
    let (minor, c) ← scanVersionNumber c.skip
    some (.versionDirective major minor, c)
  else none

/-- The handle of a tag: an exclamation mark, word characters, and perhaps another mark. -/
def scanTagHandle (inDirective : Bool) (c : Cursor) : Option (List Char × Cursor) :=
  if c.head == '!' then
    let word := c.skip.run isWordChar
    let c := c.skip.skipWhile isWordChar
    if c.head == '!' then some ('!' :: word ++ ['!'], c.skip)
    else if inDirective && !word.isEmpty then none
    else some ('!' :: word, c)
  else none

/-- The length of a UTF-8 sequence by its first byte. -/
def utf8Width (b : Nat) : Nat :=
  if b < 0x80 then 1
  else if b < 0xC0 then 0
  else if b < 0xE0 then 2
  else if b < 0xF0 then 3
  else if b < 0xF8 then 4
  else 0

/-- A byte written as a percent sign and two hexadecimal digits. -/
def scanPercentByte (c : Cursor) : Option (Nat × Cursor) :=
  if c.head == '%' then
    match hexDigit? (c.peek 1), hexDigit? (c.peek 2) with
    | some a, some b => some (16 * a + b, c.skipMany 3)
    | _, _ => none
  else none

/-- The following bytes of a UTF-8 sequence. -/
def scanPercentTail : Nat → Cursor → Option (List Nat × Cursor)
  | 0, c => some ([], c)
  | n + 1, c => do
    let (b, c) ← scanPercentByte c
    if 0x80 ≤ b && b < 0xC0 then
      let (bs, c) ← scanPercentTail n c
      some (b :: bs, c)
    else none

/-- A character written as percent-encoded bytes; bytes of no character stand for nothing. -/
def scanPercentChar (c : Cursor) : Option (List Char × Cursor) := do
  let (b, c) ← scanPercentByte c
  let width := utf8Width b
  if width == 0 then none
  else
    let (bs, c) ← scanPercentTail (width - 1) c
    let bytes := (b :: bs).map UInt8.ofNat
    some (((String.fromUTF8? ⟨bytes.toArray⟩).map String.toList).getD [], c)

/-- The characters of a tag; `verbatim` ones may have flow indicators among them. -/
def scanTagChars (verbatim : Bool) : Nat → Cursor → Option (List Char × Cursor)
  | 0, _ => none
  | fuel + 1, c =>
    if isTagChar c.head || (verbatim && ",[]".toList.contains c.head) then
      if c.head == '%' then
        match scanPercentChar c with
        | none => none
        | some (cs, c) => (scanTagChars verbatim fuel c).map fun r => (cs ++ r.1, r.2)
      else (scanTagChars verbatim fuel c.skip).map fun r => (c.head :: r.1, r.2)
    else some ([], c)

/-- A tag's characters after those of a mistaken handle; there must be some. -/
def scanTagUri (verbatim : Bool) (head : List Char) (c : Cursor) : Option (List Char × Cursor) :=
  match scanTagChars verbatim (c.rest.length + 1) c with
  | none => none
  | some (cs, d) =>
    if head.isEmpty && d.index == c.index then none else some (head.tail ++ cs, d)

/-- The handle and expansion of a tag directive. -/
def scanTagDirective (c : Cursor) : Option (Token × Cursor) := do
  let (handle, c) ← scanTagHandle true (c.skipWhile isBlank)
  if isBlank c.head then
    let (uri, c) ← scanTagUri true [] (c.skipWhile isBlank)
    if isGap c.head then
      some (.tagDirective (String.ofList handle) (String.ofList uri), c)
    else none
  else none

/-- A directive after its percent sign. -/
def scanDirective (c : Cursor) : Option (Token × Cursor) := do
  let name := c.run isWordChar
  let c := c.skipWhile isWordChar
  if !isGap c.head then none
  else
    let (t, c) ← if name == "YAML".toList then scanVersion c
      else if name == "TAG".toList then scanTagDirective c else none
    let c := c.skipWhile isBlank
    let c := if c.head == '#' then c.skipWhile (fun d => !isBreakOrEnd d) else c
    if isBreakOrEnd c.head then some (t, c.skipLine) else none

/-- The name of an anchor or an alias after its indicator. -/
def scanAnchorName (c : Cursor) : Option (String × Cursor) :=
  let name := c.run isWordChar
  let c := c.skipWhile isWordChar
  if !name.isEmpty && (isGap c.head || "?:,]\x7d%@`".toList.contains c.head) then
    some (String.ofList name, c)
  else none

/-- The two parts of a tag. -/
def scanTagParts (c : Cursor) : Option (String × String × Cursor) := do
  if c.peek 1 == '<' then
    let (uri, c) ← scanTagUri true [] c.skip.skip
    if c.head == '>' then some ("", String.ofList uri, c.skip) else none
  else
    let (handle, c) ← scanTagHandle false c
    if 2 ≤ handle.length && handle.getLast? == some '!' then
      let (uri, c) ← scanTagUri false [] c
      some (String.ofList handle, String.ofList uri, c)
    else
      let (uri, c) ← scanTagUri false handle c
      if uri.isEmpty then some ("", "!", c) else some ("!", String.ofList uri, c)

/-- A tag; a gap follows it, or a comma in a flow collection. -/
def scanTag (inFlow : Bool) (c : Cursor) : Option (Token × Cursor) := do
  let (handle, suffix, c) ← scanTagParts c
  if isGap c.head || (inFlow && c.head == ',') then some (.tag handle suffix, c) else none

/-! ## Taking a token -/

/-- Takes a token of one character. -/
def takeChar (t : Token) (s : Lexer) : Lexer := (s.moveTo s.cursor.skip).push t

/-- Takes a token that ends all blocks: a directive or a mark between documents. -/
def takeTopLevel (scan : Cursor → Option (Token × Cursor)) (s : Lexer) : Option Lexer := do
  let s ← (s.closeBlocks (-1)).dropKey
  let (t, c) ← scan s.cursor
  some (((s.allowKey false).moveTo c).push t)

/-- Takes the end of the stream, which ends its last line. -/
def takeStreamEnd (s : Lexer) : Option Lexer := do
  let c := s.cursor
  let c := if c.column == 0 then c else { c with column := 0, line := c.line + 1 }
  let s ← ((s.moveTo c).closeBlocks (-1)).dropKey
  some ((s.allowKey false).push .streamEnd)

/-- Takes the start of a flow collection. -/
def takeFlowStart (t : Token) (s : Lexer) : Option Lexer := do
  let s ← s.noteKey
  let s := { s with possibleKeys := none :: s.possibleKeys, flowDepth := s.flowDepth + 1 }
  some ((s.allowKey true).takeChar t)

/-- Takes the end of a flow collection. -/
def takeFlowEnd (t : Token) (s : Lexer) : Option Lexer := do
  let s ← s.dropKey
  let s := if s.inFlow then
      { s with possibleKeys := s.possibleKeys.tail, flowDepth := s.flowDepth - 1 }
    else s
  some ((s.allowKey false).takeChar t)

/-- Takes a comma. -/
def takeFlowEntry (s : Lexer) : Option Lexer := do
  let s ← s.dropKey
  some ((s.allowKey true).takeChar .flowEntry)

/-- Takes the dash of a block sequence, which may open the sequence. -/
def takeBlockEntry (s : Lexer) : Option Lexer := do
  if !s.inFlow && !s.keyAllowed then none
  else
    let s ← (s.openBlock s.cursor.column none .blockSequenceStart).dropKey
    some ((s.allowKey true).takeChar .blockEntry)

/-- Takes the indicator of a key, which may open a mapping. -/
def takeKey (s : Lexer) : Option Lexer := do
  if !s.inFlow && !s.keyAllowed then none
  else
    let s ← (s.openBlock s.cursor.column none .blockMappingStart).dropKey
    some ((s.allowKey (!s.inFlow)).takeChar .key)

/-- Takes the colon before a value.  A possible key becomes one, and may open a mapping. -/
def takeValue (s : Lexer) : Option Lexer :=
  match s.possibleKeys with
  | some k :: ks =>
    let s := { s.insertAt k.position .key with possibleKeys := none :: ks }
    let s := s.openBlock k.column (some k.position) .blockMappingStart
    some ((s.allowKey false).takeChar .value)
  | _ =>
    if !s.inFlow && !s.keyAllowed then none
    else
      let s := s.openBlock s.cursor.column none .blockMappingStart
      some ((s.allowKey (!s.inFlow)).takeChar .value)

/-- Takes a token that may start a key. -/
def takeContent (scan : Cursor → Option (Token × Cursor)) (s : Lexer) : Option Lexer := do
  let s ← s.noteKey
  let (t, c) ← scan s.cursor
  some (((s.allowKey false).moveTo c).push t)

/-- Takes an anchor or an alias. -/
def takeAnchor (make : String → Token) : Lexer → Option Lexer :=
  takeContent fun c => (scanAnchorName c.skip).map fun r => (make r.1, r.2)

/-- Takes a quoted scalar. -/
def takeQuoted (quote : Char) (style : Style) : Lexer → Option Lexer :=
  takeContent fun c =>
    (scanQuoted quote (c.rest.length + 1) c.skip).map fun r =>
      (.scalar (String.ofList r.1) style, r.2)

/-- Takes a block scalar, after which a key may start. -/
def takeBlockScalar (style : Style) (s : Lexer) : Option Lexer := do
  let s ← s.dropKey
  let (text, c) ← scanBlock (style == .folded) s.indent s.cursor.skip
  some (((s.allowKey true).moveTo c).push (.scalar (String.ofList text) style))

/-- Takes a plain scalar; when it has ended after a line break, a key may start. -/
def takePlain (s : Lexer) : Option Lexer := do
  let s ← s.noteKey
  let c := s.cursor
  let (text, broken, c) ← scanPlain s.inFlow (s.indent + 1) (c.rest.length + 1) .none c
  some (((s.allowKey broken).moveTo c).push (.scalar (String.ofList text) .plain))

/-- A plain scalar may start here. -/
def startsPlain (s : Lexer) : Bool :=
  let c := s.cursor
  (!isGap c.head && !indicators.contains c.head) ||
    (c.head == '-' && !isBlank (c.peek 1)) ||
    (!s.inFlow && (c.head == '?' || c.head == ':') && !isGap (c.peek 1))

/-- Takes the token at the cursor. -/
def takeToken (s : Lexer) : Option Lexer :=
  let c := s.cursor
  let indicator := s.inFlow || isGap (c.peek 1)
  if c.head == endMark then s.takeStreamEnd
  else if c.column == 0 && c.head == '%' then s.takeTopLevel fun c => scanDirective c.skip
  else if c.atDocumentMark then
    s.takeTopLevel fun c =>
      some (if c.head == '-' then .documentStart else .documentEnd, c.skipMany 3)
  else
    match c.head with
    | '[' => s.takeFlowStart .flowSequenceStart
    | '{' => s.takeFlowStart .flowMappingStart
    | ']' => s.takeFlowEnd .flowSequenceEnd
    | '}' => s.takeFlowEnd .flowMappingEnd
    | ',' => s.takeFlowEntry
    | '*' => s.takeAnchor .alias
    | '&' => s.takeAnchor .anchor
    | '!' => s.takeContent (scanTag s.inFlow)
    | '\'' => s.takeQuoted '\'' .singleQuoted
    | '"' => s.takeQuoted '"' .doubleQuoted
    | d =>
      if d == '-' && isGap (c.peek 1) then s.takeBlockEntry
      else if d == '?' && indicator then s.takeKey
      else if d == ':' && indicator then s.takeValue
      else if d == '|' && !s.inFlow then s.takeBlockScalar .literal
      else if d == '>' && !s.inFlow then s.takeBlockScalar .folded
      else if s.startsPlain then s.takePlain
      else none

/-- Passes to the next token and takes it. -/
def step (s : Lexer) : Option Lexer := do
  let s ← (s.toNextToken (s.cursor.rest.length + 1)).dropStale
  (s.closeBlocks s.cursor.column).takeToken

/-- The tokens that cannot turn out to belong to a key any more. -/
def settled (s : Lexer) : List Token :=
  let limit := (s.possibleKeys.filterMap fun k => k.map (·.position)).foldl min s.count
  (s.tokens.drop (s.count - limit)).reverse

/-- Takes tokens up to the end of the stream or the first fault. -/
def run : Nat → Lexer → List Token
  | 0, s => s.settled
  | fuel + 1, s =>
    match s.dropStale with
    | none => s.settled
    | some s =>
      match s.step with
      | none => s.settled
      | some s =>
        if s.tokens.head? == some .streamEnd then s.tokens.reverse else run fuel s

end Lexer

/-- The tokens of a stream up to its first fault; without a fault the last one is the end of the
stream.  A stream with characters that may not stand in one has no tokens. -/
def tokenize (s : String) : List Token :=
  let cs := s.toList
  if cs.all isPrintable then (Lexer.start cs).run (cs.length + 2) else []

end Marketplace.Yaml
