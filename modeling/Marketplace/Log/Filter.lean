import Marketplace.Text.Blank
import Marketplace.Text.Integer
import Marketplace.Text.LetterTable
set_option autoImplicit false

/-!
# Log filters

A filter is a list of directives with commas between them.  A directive lets events up to a level
through: all of them, or those of a target, or those that carry certain fields.  Of all directives
that concern an event the most specific one decides, and of two alike the later one.

The written form is `target[span{field}]=level`, where all parts may be missing; a target
without a level lets everything of that target through.  Directives for spans concern what happens
within a span and never an event outside of one.
-/

namespace Marketplace

/-- How grave an event is. -/
inductive LogLevel
  | error
  | warn
  | info
  | debug
  | trace
  deriving DecidableEq, Repr

namespace LogLevel

/-- The levels from the gravest to the least grave. -/
def all : List LogLevel := [.error, .warn, .info, .debug, .trace]

/-- The name in capital letters. -/
def name : LogLevel → String
  | .error => "ERROR"
  | .warn => "WARN"
  | .info => "INFO"
  | .debug => "DEBUG"
  | .trace => "TRACE"

/-- The place of the level, counted from one. -/
def rank : LogLevel → Nat
  | .error => 1
  | .warn => 2
  | .info => 3
  | .debug => 4
  | .trace => 5

end LogLevel

/-- Something that is logged. -/
structure LogEvent where
  level : LogLevel
  /-- The part of the program that it comes from. -/
  target : String
  message : String
  deriving DecidableEq, Repr

/-- The rank of the least grave level that is let through; zero lets nothing through. -/
abbrev LogThreshold := Nat

/-- Reads a threshold: a number up to five, or the name of a level in any case; nothing stands for
the gravest level. -/
def LogThreshold.parse? (s : String) : Option LogThreshold :=
  match Text.readInteger (.unsigned 64) s with
  | .ok n => if n ≤ 5 then some n.toNat else none
  | .error _ =>
    let name := s.map Char.toUpper
    if name == "" then some 1
    else if name == "OFF" then some 0
    else (LogLevel.all.find? fun l => l.name == name).map LogLevel.rank

/-- A field that a directive asks for. -/
structure LogField where
  name : String
  /-- The field has to have a certain value. -/
  hasValue : Bool
  deriving DecidableEq, Repr

/-- A directive. -/
structure LogDirective where
  threshold : LogThreshold
  target : Option String
  span : Option String
  fields : List LogField
  deriving DecidableEq, Repr

namespace LogDirective

/-- The directive concerns events themselves. -/
def isForEvents (d : LogDirective) : Bool := d.span.isNone && d.fields.all fun f => !f.hasValue

/-- The fields that every event carries. -/
def eventFields : List String := ["message"]

/-- The directive concerns the event. -/
def concerns (d : LogDirective) (e : LogEvent) : Bool :=
  d.isForEvents && (d.target.all fun t => e.target.startsWith t) &&
    d.fields.all fun f => eventFields.contains f.name

/-- The directive is at least as specific as another one: a longer target goes first, then more
fields. -/
def isAsSpecificAs (d e : LogDirective) : Bool :=
  let length (d : LogDirective) := (d.target.map fun t => t.utf8ByteSize + 1).getD 0
  length e < length d || (length e == length d && e.fields.length ≤ d.fields.length)

/-- Reads a threshold after an equals sign; nothing lets everything through. -/
def level? (cs : List Char) : Option LogThreshold :=
  if cs.isEmpty then some 5 else LogThreshold.parse? (String.ofList cs)

/-- Reads a field, with a value behind an equals sign. -/
def field? (cs : List Char) : Option LogField :=
  let name := cs.takeWhile (· != '=')
  if cs.isEmpty then none else some ⟨String.ofList name, cs.length != name.length⟩

/-- A text that is missing if it is empty. -/
def nonEmpty (cs : List Char) : Option String :=
  if cs.isEmpty then none else some (String.ofList cs)

/-- Reads what stands behind a span: an equals sign with a level, or nothing. -/
def afterSpan? (target span : Option String) (fields : List LogField) :
    List Char → Option LogDirective
  | [] => some ⟨5, target, span, fields⟩
  | '=' :: rest => (level? rest).map fun t => ⟨t, target, span, fields⟩
  | _ => none

/-- Reads a span after its opening bracket. -/
def inSpan? (target : Option String) (cs : List Char) : Option LogDirective :=
  let isEnd (c : Char) := c == ']' || c == '\x7b'
  let name := cs.takeWhile fun c => !isEnd c
  match cs.dropWhile fun c => !isEnd c with
  | ']' :: rest => afterSpan? target (some (String.ofList name)) [] rest
  | '\x7b' :: rest =>
    match rest.dropWhile (· != '\x7d') with
    | '\x7d' :: ']' :: after => do
      let fields ← ((rest.takeWhile (· != '\x7d')).splitOn ',').mapM field?
      afterSpan? target (nonEmpty name) fields after
    | _ => none
  | _ => none

/-- A character that a directive may begin with. -/
def isStart (c : Char) : Bool := Text.isLetterOrNumber c || c == '-' || c == ':' || c == '_'

/-- Reads a directive. -/
def parse? (s : String) : Option LogDirective :=
  match Text.trimChars s.toList with
  | [] => none
  | '[' :: rest => inSpan? none rest
  | c :: rest =>
    if !isStart c then none
    else
      let isEnd (c : Char) := c == '=' || c == '['
      let text := (c :: rest).takeWhile fun c => !isEnd c
      match (c :: rest).dropWhile fun c => !isEnd c with
      | '=' :: rest => (level? rest).map fun t => ⟨t, some (String.ofList text), none, []⟩
      | '[' :: rest => inSpan? (some (String.ofList text)) rest
      | _ =>
        match LogThreshold.parse? (String.ofList text) with
        | some t => some ⟨t, none, none, []⟩
        | none => some ⟨5, some (String.ofList text), none, []⟩

end LogDirective

/-- A filter. -/
structure LogFilter where
  directives : List LogDirective
  deriving DecidableEq, Repr

namespace LogFilter

/-- The parts of a written filter. -/
def parts (s : String) : List String := (s.splitOn ",").filter fun p => p != ""

/-- Reads a filter whose directives are all sound. -/
def parse? (s : String) : Option LogFilter := ((parts s).mapM LogDirective.parse?).map LogFilter.mk

/-- Reads the sound directives of a filter; without any, grave events are let through. -/
def ofText (s : String) : LogFilter :=
  match (parts s).filterMap LogDirective.parse? with
  | [] => ⟨[⟨1, none, none, []⟩]⟩
  | ds => ⟨ds⟩

/-- The filter of the outside, or that of the program if there is none or it is not sound. -/
def choose (outside : Option String) (own : String) : LogFilter :=
  (outside.bind parse?).getD (ofText own)

/-- The more specific of two directives, and of two alike the second. -/
def moreSpecific (d e : LogDirective) : LogDirective := if e.isAsSpecificAs d then e else d

/-- The directive that decides about an event. -/
def deciding? (f : LogFilter) (e : LogEvent) : Option LogDirective :=
  match f.directives.filter fun d => d.concerns e with
  | [] => none
  | d :: ds => some (ds.foldl moreSpecific d)

/-- The filter lets the event through. -/
def accepts (f : LogFilter) (e : LogEvent) : Bool :=
  (f.deciding? e).any fun d => e.level.rank ≤ d.threshold

end LogFilter

end Marketplace
