import Marketplace.Decimal.Shortest
import Marketplace.Json.Decoder
set_option autoImplicit false

/-!
# Retry policies

How often a job runs, and how long it rests after a failure.  Rests are lengths of time in whole
nanoseconds with a greatest one; what would be longer is cut to it, and then to the policy's own
limit.
-/

namespace Marketplace

open Json (Value Decoder)

/-- The nanoseconds of a second. -/
def nanosPerSecond : Nat := 1000000000

/-- The nanoseconds of a millisecond. -/
def nanosPerMilli : Nat := 1000000

/-- The number of lengths of time, in nanoseconds. -/
def spanBound : Nat := Nat.pow 2 64 * nanosPerSecond

/-- A length of time in nanoseconds, below `2 ^ 64` seconds. -/
structure Span where
  nanos : Nat
  nanos_lt : nanos < spanBound
  deriving DecidableEq, Repr

namespace Span

/-- The greatest number of nanoseconds. -/
def maxNanos : Nat := spanBound - 1

/-- The length of time of a number of nanoseconds, or the greatest one. -/
def ofNanos (n : Nat) : Span :=
  ⟨min n maxNanos, Nat.lt_of_le_of_lt (Nat.min_le_right n maxNanos) (by decide)⟩

/-- No time. -/
def zero : Span := ofNanos 0

/-- A number of milliseconds. -/
def ofMillis (n : Nat) : Span := ofNanos (n * nanosPerMilli)

/-- A number of seconds. -/
def ofSeconds (n : Nat) : Span := ofNanos (n * nanosPerSecond)

/-- The whole seconds. -/
def seconds (s : Span) : Nat := s.nanos / nanosPerSecond

/-- The nanoseconds that the seconds leave. -/
def subNanos (s : Span) : Nat := s.nanos % nanosPerSecond

/-- The length of seconds and nanoseconds, of which there may be more than a second's. -/
def ofParts? (p : Nat × Nat) : Option Span :=
  if h : p.1 * nanosPerSecond + p.2 < spanBound then some ⟨p.1 * nanosPerSecond + p.2, h⟩ else none

/-- So many times as long, or the greatest length: the seconds and the nanoseconds that they leave
are multiplied apart. -/
def times (s : Span) (n : Nat) : Span :=
  (ofParts? (s.seconds * n, s.subNanos * n)).getD (ofNanos maxNanos)

/-- The shorter one. -/
def min (s t : Span) : Span := if s.nanos ≤ t.nanos then s else t

/-- The length in seconds as a double: the seconds and their fraction are rounded, and so is their
sum. -/
def inSeconds (s : Span) : Binary64 :=
  (Binary64.ofNat s.seconds).plus ((Binary64.ofNat s.subNanos).overPowerOfTen 9)

/-- The length in seconds as a decimal number. -/
def secondsText (s : Span) : String := s.inSeconds.plainText

/-- The JSON form. -/
def toJson (s : Span) : Value := .object [("secs", .nat s.seconds), ("nanos", .nat s.subNanos)]

/-- Reads the JSON form, which has no other members. -/
def decoder : Decoder Span :=
  .filterMap ofParts? (.closedRecord (0, 0) [
    .required "secs" (.natural 64) fun v p => (v, p.2),
    .required "nanos" (.natural 32) fun v p => (p.1, v)])

end Span

/-- How the rest grows from one failure to the next. -/
inductive Backoff
  /-- It stays the same. -/
  | fixed
  /-- It doubles. -/
  | exponential
  /-- It grows by the same length. -/
  | linear
  deriving DecidableEq, Repr

namespace Backoff

/-- The kinds in order. -/
def all : List Backoff := [.fixed, .exponential, .linear]

/-- The usual kind. -/
def usual : Backoff := .exponential

/-- The name. -/
def name : Backoff → String
  | .fixed => "fixed"
  | .exponential => "exponential"
  | .linear => "linear"

/-- How many base rests follow the run of the number, which counts from one. -/
def factor (b : Backoff) (attempt : Nat) : Nat :=
  match b with
  | .fixed => 1
  | .linear => attempt
  | .exponential => if attempt - 1 < 32 then Nat.pow 2 (attempt - 1) else Nat.pow 2 32 - 1

/-- The JSON form. -/
def toJson (b : Backoff) : Value := .text b.name

/-- Reads the JSON form. -/
def decoder : Decoder Backoff := .oneOf (all.map fun b => (b.name, .plain b))

end Backoff

/-- How often a job runs, the first time included, and how long it rests in between. -/
structure RetryPolicy where
  maxAttempts : Nat
  baseDelay : Span
  maxDelay : Span
  backoff : Backoff
  deriving DecidableEq, Repr

namespace RetryPolicy

/-- Five runs with rests from half a second to a minute. -/
def usual : RetryPolicy := ⟨5, .ofMillis 500, .ofSeconds 60, .exponential⟩

/-- One run only. -/
def once : RetryPolicy := { usual with maxAttempts := 1 }

/-- Rests of one length. -/
def fixed (maxAttempts : Nat) (delay : Span) : RetryPolicy := ⟨maxAttempts, delay, delay, .fixed⟩

/-- Rests that double up to a limit. -/
def exponential (maxAttempts : Nat) (base limit : Span) : RetryPolicy :=
  ⟨maxAttempts, base, limit, .exponential⟩

/-- Rests that grow evenly up to a limit. -/
def linear (maxAttempts : Nat) (base limit : Span) : RetryPolicy :=
  ⟨maxAttempts, base, limit, .linear⟩

/-- The rest after the run of the number, which counts from one. -/
def delayAfter (p : RetryPolicy) (attempt : Nat) : Span :=
  if attempt = 0 then .zero else (p.baseDelay.times (p.backoff.factor attempt)).min p.maxDelay

/-- There is a run after the run of the number. -/
def allowsAnother (p : RetryPolicy) (attempt : Nat) : Bool := attempt < p.maxAttempts

/-- The JSON form. -/
def toJson (p : RetryPolicy) : Value :=
  .object [("max_attempts", .nat p.maxAttempts), ("base_delay", p.baseDelay.toJson),
    ("max_delay", p.maxDelay.toJson), ("strategy", p.backoff.toJson)]

/-- Reads the JSON form. -/
def decoder : Decoder RetryPolicy :=
  .record ⟨0, .zero, .zero, .usual⟩ [
    .required "max_attempts" (.natural 32) fun v p => { p with maxAttempts := v },
    .required "base_delay" Span.decoder fun v p => { p with baseDelay := v },
    .required "max_delay" Span.decoder fun v p => { p with maxDelay := v },
    .required "strategy" Backoff.decoder fun v p => { p with backoff := v }]

end RetryPolicy

end Marketplace
