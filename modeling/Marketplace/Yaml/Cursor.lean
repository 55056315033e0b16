import Marketplace.Yaml.Token
set_option autoImplicit false

/-!
# Reading characters with positions

A cursor is the rest of a YAML stream together with its place in the stream.  The scalar readers of
this module take a scalar from a cursor; they know nothing of tokens.
-/

namespace Marketplace.Yaml

/-- The rest of a stream and where it starts. -/
structure Cursor where
  rest : List Char
  index : Nat
  line : Nat
  column : Nat
  deriving DecidableEq, Repr

namespace Cursor

/-- The character `k` places ahead. -/
def peek (c : Cursor) (k : Nat) : Char := c.rest.getD k endMark

/-- The next character. -/
def head (c : Cursor) : Char := c.peek 0

/-- Passes one character of a line. -/
def skip (c : Cursor) : Cursor :=
  match c.rest with
  | [] => c
  | _ :: rest => { c with rest := rest, index := c.index + 1, column := c.column + 1 }

/-- Passes several characters of a line. -/
def skipMany (c : Cursor) : Nat → Cursor
  | 0 => c
  | n + 1 => c.skip.skipMany n

/-- Passes a line break; a carriage return and a line feed are one. -/
def skipLine (c : Cursor) : Cursor :=
  match c.rest with
  | '\r' :: '\n' :: rest => ⟨rest, c.index + 2, c.line + 1, 0⟩
  | d :: rest => if isBreak d then ⟨rest, c.index + 1, c.line + 1, 0⟩ else c
  | [] => c

/-- What a line break means in a scalar: a line feed, or itself for the separators of lines and of
paragraphs. -/
def lineText (c : Cursor) : List Char :=
  if c.head == '\u2028' || c.head == '\u2029' then [c.head]
  else if isBreak c.head then ['\n'] else []

/-- Passes the characters of a line as long as they satisfy `p`. -/
def skipWhile (p : Char → Bool) (c : Cursor) : Cursor :=
  let n := (c.rest.takeWhile p).length
  { c with rest := c.rest.drop n, index := c.index + n, column := c.column + n }

/-- The characters that `skipWhile` passes. -/
def run (p : Char → Bool) (c : Cursor) : List Char := c.rest.takeWhile p

/-- A document starts or ends here: three marks at the start of a line. -/
def atDocumentMark (c : Cursor) : Bool :=
  c.column == 0 && isGap (c.peek 3) &&
    (c.rest.take 3 == ['-', '-', '-'] || c.rest.take 3 == ['.', '.', '.'])

end Cursor

/-- White space inside a scalar: what stands on the line, the first line break and the later
ones. -/
structure Gap where
  broken : Bool
  spaces : List Char
  firstBreak : List Char
  laterBreaks : List Char
  deriving DecidableEq, Repr

/-- The gap of nothing. -/
def Gap.none : Gap := ⟨false, [], [], []⟩

/-- What a gap means: on one line itself, across lines a space, or the line breaks after the
first one. -/
def Gap.fold (g : Gap) : List Char :=
  if g.broken then
    if g.firstBreak == ['\n'] then (if g.laterBreaks.isEmpty then [' '] else g.laterBreaks)
    else g.firstBreak ++ g.laterBreaks
  else g.spaces

/-- Passes white space from a gap on.  A tab left of `tabLimit` on a later line is not allowed. -/
def scanGap (tabLimit : Option Int) : Nat → Gap → Cursor → Option (Gap × Cursor)
  | 0, _, _ => none
  | fuel + 1, g, c =>
    if isBlank c.head then
      if g.broken && c.head == '\t' && tabLimit.any (fun n => (c.column : Int) < n) then none
      else if g.broken then scanGap tabLimit fuel g c.skip
      else scanGap tabLimit fuel { g with spaces := g.spaces ++ [c.head] } c.skip
    else if isBreak c.head then
      if g.broken then
        scanGap tabLimit fuel { g with laterBreaks := g.laterBreaks ++ c.lineText } c.skipLine
      else scanGap tabLimit fuel ⟨true, [], c.lineText, []⟩ c.skipLine
    else some (g, c)

/-! ## Plain scalars -/

/-- A colon ends a plain scalar before a gap; inside a flow collection so does an indicator. -/
def endsPlain (inFlow : Bool) (c : Cursor) : Bool :=
  (c.head == ':' && isGap (c.peek 1)) || (inFlow && flowIndicators.contains c.head)

/-- Inside a flow collection a colon may not stand before an indicator. -/
def misplacedColon (inFlow : Bool) (c : Cursor) : Bool :=
  inFlow && c.head == ':' && (c.peek 1 == '?' || flowIndicators.contains (c.peek 1))

/-- The characters of a plain scalar up to the next gap. -/
def scanPlainRun (inFlow : Bool) : Nat → Cursor → Option (List Char × Cursor)
  | 0, _ => none
  | fuel + 1, c =>
    if isGap c.head then some ([], c)
    else if misplacedColon inFlow c then none
    else if endsPlain inFlow c then some ([], c)
    else (scanPlainRun inFlow fuel c.skip).map fun r => (c.head :: r.1, r.2)

/-- A plain scalar from its current gap on: its text, whether it ended after a line break, and
what follows. -/
def scanPlain (inFlow : Bool) (indent : Int) :
    Nat → Gap → Cursor → Option (List Char × Bool × Cursor)
  | 0, _, _ => none
  | fuel + 1, gap, c =>
    if c.atDocumentMark || c.head == '#' then some ([], gap.broken, c)
    else
      match scanPlainRun inFlow (c.rest.length + 1) c with
      | none => none
      | some ([], c) => some ([], gap.broken, c)
      | some (run, c) =>
        let text := gap.fold ++ run
        if !isBlank c.head && !isBreak c.head then some (text, false, c)
        else
          match scanGap (some indent) (c.rest.length + 1) .none c with
          | none => none
          | some (gap, c) =>
            if !inFlow && (c.column : Int) < indent then some (text, gap.broken, c)
            else (scanPlain inFlow indent fuel gap c).map fun r => (text ++ r.1, r.2)

/-! ## Quoted scalars -/

/-- The value of a hexadecimal digit. -/
def hexDigit? (c : Char) : Option Nat :=
  if '0' ≤ c && c ≤ '9' then some (c.toNat - '0'.toNat)
  else if 'a' ≤ c && c ≤ 'f' then some (c.toNat - 'a'.toNat + 10)
  else if 'A' ≤ c && c ≤ 'F' then some (c.toNat - 'A'.toNat + 10)
  else none

/-- The value of hexadecimal digits. -/
def hexNumber? (cs : List Char) : Option Nat :=
  cs.foldlM (fun n c => (hexDigit? c).map fun d => 16 * n + d) 0

/-- The number of hexadecimal digits after an escape letter. -/
def escapeWidth : Char → Nat
  | 'x' => 2
  | 'u' => 4
  | 'U' => 8
  | _ => 0

/-- The character that a one-letter escape stands for. -/
def escapeChar? : Char → Option Char
  | '0' => some '\x00'
  | 'a' => some '\x07'
  | 'b' => some '\x08'
  | 't' => some '\t'
  | '\t' => some '\t'
  | 'n' => some '\n'
  | 'v' => some '\x0b'
  | 'f' => some '\x0c'
  | 'r' => some '\r'
  | 'e' => some '\x1b'
  | ' ' => some ' '
  | '"' => some '"'
  | '/' => some '/'
  | '\\' => some '\\'
  | 'N' => some '\u0085'
  | '_' => some '\u00a0'
  | 'L' => some '\u2028'
  | 'P' => some '\u2029'
  | _ => none

/-- The character of a code point, if it is one. -/
def codePoint? (n : Nat) : Option Char :=
  if (0xD800 ≤ n && n ≤ 0xDFFF) || 0x10FFFF < n then none else some (Char.ofNat n)

/-- Reads an escape after its backslash. -/
def scanEscape (c : Cursor) : Option (Char × Cursor) :=
  let width := escapeWidth c.head
  if width == 0 then (escapeChar? c.head).map fun d => (d, c.skip)
  else
    let digits := c.skip.rest.take width
    if digits.length == width then
      ((hexNumber? digits).bind codePoint?).map fun d => (d, c.skip.skipMany width)
    else none

/-- The characters of a quoted scalar up to the next gap or the closing quote.  The Boolean says
that an escaped line break ended them. -/
def scanQuotedRun (quote : Char) : Nat → Cursor → Option (List Char × Bool × Cursor)
  | 0, _ => none
  | fuel + 1, c =>
    if isGap c.head then some ([], false, c)
    else if quote == '\'' && c.head == quote && c.peek 1 == quote then
      (scanQuotedRun quote fuel c.skip.skip).map fun r => (quote :: r.1, r.2)
    else if c.head == quote then some ([], false, c)
    else if quote == '"' && c.head == '\\' then
      if isBreak (c.peek 1) then some ([], true, c.skip.skipLine)
      else
        match scanEscape c.skip with
        | none => none
        | some (d, c) => (scanQuotedRun quote fuel c).map fun r => (d :: r.1, r.2)
    else (scanQuotedRun quote fuel c.skip).map fun r => (c.head :: r.1, r.2)

/-- A quoted scalar after its opening quote: its text and what follows the closing quote. -/
def scanQuoted (quote : Char) : Nat → Cursor → Option (List Char × Cursor)
  | 0, _ => none
  | fuel + 1, c =>
    if c.atDocumentMark || c.head == endMark then none
    else
      match scanQuotedRun quote (c.rest.length + 1) c with
      | none => none
      | some (run, escapedBreak, c) =>
        if c.head == quote then some (run, c.skip)
        else
          match scanGap none (c.rest.length + 1) { Gap.none with broken := escapedBreak } c with
          | none => none
          | some (gap, c) =>
            (scanQuoted quote fuel c).map fun r => (run ++ gap.fold ++ r.1, r.2)

/-! ## Block scalars -/

/-- The trailing line breaks of a block scalar that are kept. -/
inductive Chomping
  | strip
  | clip
  | keep
  deriving DecidableEq, Repr

/-- The chomping that an indicator asks for. -/
def chomping? (c : Char) : Option Chomping :=
  if c == '+' then some .keep else if c == '-' then some .strip else none

/-- The indentation that an indicator asks for; zero is not allowed. -/
def increment? (c : Char) : Option (Option Nat) :=
  if c.isDigit then (if c == '0' then none else some (some (c.toNat - '0'.toNat)))
  else some none

/-- The header of a block scalar: chomping and indentation in either order. -/
def scanBlockHeader (c : Cursor) : Option (Chomping × Option Nat × Cursor) :=
  match chomping? c.head with
  | some ch =>
    let c := c.skip
    match increment? c.head with
    | none => none
    | some (some n) => some (ch, some n, c.skip)
    | some none => some (ch, none, c)
  | none =>
    match increment? c.head with
    | none => none
    | some (some n) =>
      let c := c.skip
      match chomping? c.head with
      | some ch => some (ch, some n, c.skip)
      | none => some (.clip, some n, c)
    | some none => some (.clip, none, c)

/-- Passes the indentation and the empty lines before a line of a block scalar.  An indentation
that is not known yet is found from the lines passed: `widest` is their greatest. -/
def scanBlockBreaks (indent : Option Nat) :
    Nat → Nat → Cursor → Option (List Char × Nat × Cursor)
  | 0, _, _ => none
  | fuel + 1, widest, c =>
    let spaces := (c.run (· == ' ')).length
    let n := match indent with
      | some i => min spaces (i - c.column)
      | none => spaces
    let c := c.skipMany n
    let widest := max widest c.column
    if c.head == '\t' && indent.all (fun i => c.column < i) then none
    else if isBreak c.head then
      (scanBlockBreaks indent fuel widest c.skipLine).map fun r => (c.lineText ++ r.1, r.2)
    else some ([], widest, c)

/-- The lines of a block scalar from the start of a line on, with the break that ended the line
before and the empty lines after it: the text, and the breaks left at the end. -/
def scanBlockLines (folded : Bool) (indent : Nat) :
    Nat → Bool → List Char → List Char → Cursor →
      Option (List Char × List Char × List Char × Cursor)
  | 0, _, _, _, _ => none
  | fuel + 1, blankBefore, lineBreak, emptyLines, c =>
    if c.column == indent && c.head != endMark then
      let blankHere := isBlank c.head
      let joined :=
        if folded && lineBreak == ['\n'] && !blankBefore && !blankHere then
          (if emptyLines.isEmpty then [' '] else emptyLines)
        else lineBreak ++ emptyLines
      let line := c.run (fun d => !isBreakOrEnd d)
      let c := c.skipWhile (fun d => !isBreakOrEnd d)
      let nextBreak := c.lineText
      let c := c.skipLine
      match scanBlockBreaks (some indent) (c.rest.length + 1) 0 c with
      | none => none
      | some (empty, _, c) =>
        (scanBlockLines folded indent fuel blankHere nextBreak empty c).map fun r =>
          (joined ++ line ++ r.1, r.2)
    else some ([], lineBreak, emptyLines, c)

/-- A block scalar after its indicator: its text and what follows.  `parent` is the indentation
of the block around it. -/
def scanBlock (folded : Bool) (parent : Int) (c : Cursor) : Option (List Char × Cursor) :=
  match scanBlockHeader c with
  | none => none
  | some (chomping, increment, c) =>
    let c := c.skipWhile isBlank
    let c := if c.head == '#' then c.skipWhile (fun d => !isBreakOrEnd d) else c
    if !isBreakOrEnd c.head then none
    else
      let c := c.skipLine
      let base := (if 0 ≤ parent then parent else 0).toNat
      let given := increment.map fun n => base + n
      match scanBlockBreaks given (c.rest.length + 1) 0 c with
      | none => none
      | some (empty, widest, c) =>
        let indent := given.getD (max (max widest (parent + 1).toNat) 1)
        match scanBlockLines folded indent (c.rest.length + 1) false [] empty c with
        | none => none
        | some (text, lineBreak, emptyLines, c) =>
          let tail := match chomping with
            | .strip => []
            | .clip => lineBreak
            | .keep => lineBreak ++ emptyLines
          some (text ++ tail, c)

end Marketplace.Yaml
