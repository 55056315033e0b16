import Marketplace.Json.Decoder
import Marketplace.Text.Blank
set_option autoImplicit false

/-!
# Instants

Points in time with nanoseconds, in UTC, and their RFC 3339 texts.  The reader is lenient in blanks
and separators; the writer is exact: it gives the fewest of 0, 3, 6 or 9 fraction digits that lose
nothing, and a leap second as second sixty.
-/

namespace Marketplace

/-- A point in time: seconds since the start of 1970 and nanoseconds.  A leap second shares its
seconds with the second before it and has nanoseconds from a thousand million on. -/
structure Instant where
  seconds : Int
  nanos : Nat
  deriving DecidableEq, Repr

namespace Instant

/-- Nanoseconds of a second. -/
def nanosPerSecond : Nat := 1000000000

/-- The first instant is not after the second. -/
def le (a b : Instant) : Bool :=
  a.seconds < b.seconds || (a.seconds == b.seconds && a.nanos ≤ b.nanos)

/-- The first instant is before the second. -/
def lt (a b : Instant) : Bool := !b.le a

/-- The number of days from the start of 1970 to a date of the Gregorian calendar. -/
def daysFromCivil (year : Int) (month day : Nat) : Int :=
  let y := if month ≤ 2 then year - 1 else year
  let era := Int.fdiv y 400
  let yearOfEra := y - era * 400
  let shifted : Int := ((month + 9) % 12 : Nat)
  let dayOfYear := (153 * shifted + 2) / 5 + day - 1
  let dayOfEra := yearOfEra * 365 + yearOfEra / 4 - yearOfEra / 100 + dayOfYear
  era * 146097 + dayOfEra - 719468

/-- The date that lies so many days after the start of 1970. -/
def civilFromDays (days : Int) : Int × Nat × Nat :=
  let z := days + 719468
  let era := Int.fdiv z 146097
  let dayOfEra := z - era * 146097
  let yearOfEra := (dayOfEra - dayOfEra / 1460 + dayOfEra / 36524 - dayOfEra / 146096) / 365
  let dayOfYear := dayOfEra - (365 * yearOfEra + yearOfEra / 4 - yearOfEra / 100)
  let shifted := (5 * dayOfYear + 2) / 153
  let day := dayOfYear - (153 * shifted + 2) / 5 + 1
  let month := if shifted < 10 then shifted + 3 else shifted - 9
  let year := yearOfEra + era * 400 + (if month ≤ 2 then 1 else 0)
  (year, month.toNat, day.toNat)

/-- The year has a twenty-ninth of February. -/
def isLeapYear (year : Int) : Bool :=
  year % 4 == 0 && (year % 100 != 0 || year % 400 == 0)

/-- The number of days of a month. -/
def daysInMonth (year : Int) (month : Nat) : Nat :=
  if month == 2 then (if isLeapYear year then 29 else 28)
  else if month == 4 || month == 6 || month == 9 || month == 11 then 30
  else 31

/-- The earliest year of an instant. -/
def minYear : Int := -262143

/-- The latest year of an instant. -/
def maxYear : Int := 262142

/-- The first second of the earliest year. -/
def minSeconds : Int := daysFromCivil minYear 1 1 * 86400

/-- The last second of the latest year. -/
def maxSeconds : Int := daysFromCivil maxYear 12 31 * 86400 + 86399

/-- The instant that lies so many nanoseconds later, nothing beyond the calendar.  A leap second
counts as the start of the next one. -/
def plusNanos? (t : Instant) (n : Nat) : Option Instant :=
  let total := t.nanos + n
  let s := t.seconds + (total / nanosPerSecond : Nat)
  if s ≤ maxSeconds then some ⟨s, total % nanosPerSecond⟩ else none

/-- Nanoseconds from one instant to another. -/
def nanosBetween (a b : Instant) : Int :=
  (b.seconds - a.seconds) * nanosPerSecond + ((b.nanos : Int) - a.nanos)

/-! ## Reading -/

/-- At least one and at most `width` digits, if given, with what follows. -/
def readDigits (width : Option Nat) (cs : List Char) : Option (List Char × List Char) :=
  let ds := cs.takeWhile Char.isDigit
  let ds := match width with
    | some w => ds.take w
    | none => ds
  if ds.isEmpty then none else some (ds, cs.drop ds.length)

/-- A number of at most `width` digits that lies in a range, after blanks. -/
def readField (width low high : Nat) (cs : List Char) : Option (Nat × List Char) := do
  let (ds, rest) ← readDigits (some width) (Text.dropBlanks cs)
  let n := Text.digitsValue ds
  if low ≤ n && n ≤ high then some (n, rest) else none

/-- A year: four digits at most, or any number of them after a sign. -/
def readYear (cs : List Char) : Option (Int × List Char) :=
  match Text.dropBlanks cs with
  | '-' :: cs => (readDigits none cs).map fun r => (-(Text.digitsValue r.1 : Int), r.2)
  | '+' :: cs => (readDigits none cs).map fun r => ((Text.digitsValue r.1 : Int), r.2)
  | cs => (readDigits (some 4) cs).map fun r => ((Text.digitsValue r.1 : Int), r.2)

/-- The separator, with blanks before it. -/
def readSeparator (c : Char) (cs : List Char) : Option (List Char) :=
  match Text.dropBlanks cs with
  | d :: cs => if d == c then some cs else none
  | [] => none

/-- A fraction of a second in nanoseconds; digits after the ninth do not count. -/
def readFraction : List Char → Option (Nat × List Char)
  | '.' :: cs => do
    let (ds, rest) ← readDigits none cs
    let kept := ds.take 9
    some (Text.digitsValue kept * Nat.pow 10 (9 - kept.length), rest)
  | cs => some (0, cs)

/-- The offset of a local time from UTC, in seconds, after its sign. -/
def readOffset (negative : Bool) (cs : List Char) : Option (Int × List Char) :=
  match cs with
  | a :: b :: cs =>
    if a.isDigit && b.isDigit then
      match cs.dropWhile fun c => c == ':' || Text.isBlank c with
      | c :: d :: cs =>
        if c.isDigit && d.isDigit then
          let hours := Text.digitsValue [a, b]
          let minutes := Text.digitsValue [c, d]
          if minutes < 60 && hours < 24 then
            let seconds : Int := hours * 3600 + minutes * 60
            some (if negative then -seconds else seconds, cs)
          else none
        else none
      | _ => none
    else none
  | _ => none

/-- The zone of a time: `Z`, `UTC` or an offset. -/
def readZone : List Char → Option (Int × List Char)
  | '+' :: cs => readOffset false cs
  | '-' :: cs => readOffset true cs
  | '−' :: cs => readOffset true cs
  | c :: cs =>
    if c == 'Z' || c == 'z' then some (0, cs)
    else
      match c.toLower, cs with
      | 'u', a :: b :: rest =>
        if a.toLower == 't' && b.toLower == 'c' then some (0, rest) else none
      | _, _ => none
  | [] => none

/-- The instant of a date and time of day in a zone, if there is such a date. -/
def ofCivil (year : Int) (month day hour minute second nanos : Nat) (offset : Int) :
    Option Instant :=
  if day ≤ daysInMonth year month && minYear ≤ year && year ≤ maxYear then
    let leap := second == 60
    let second := if leap then 59 else second
    let nanos := if leap then nanosPerSecond + nanos else nanos
    let s := daysFromCivil year month day * 86400 + (hour * 3600 + minute * 60 + second : Nat) -
      offset
    if minSeconds ≤ s && s ≤ maxSeconds then some ⟨s, nanos⟩ else none
  else none

/-- Reads the date of an RFC 3339 text. -/
def readDate (cs : List Char) : Option ((Int × Nat × Nat) × List Char) := do
  let (year, cs) ← readYear cs
  let cs ← readSeparator '-' cs
  let (month, cs) ← readField 2 1 12 cs
  let cs ← readSeparator '-' cs
  let (day, cs) ← readField 2 1 31 cs
  some ((year, month, day), cs)

/-- Reads the time of day of an RFC 3339 text: hour, minute, second and nanoseconds. -/
def readTimeOfDay (cs : List Char) : Option ((Nat × Nat × Nat × Nat) × List Char) := do
  let (hour, cs) ← readField 2 0 23 cs
  let cs ← readSeparator ':' cs
  let (minute, cs) ← readField 2 0 59 cs
  let cs ← readSeparator ':' cs
  let (second, cs) ← readField 2 0 60 cs
  let (nanos, cs) ← readFraction cs
  some ((hour, minute, second, nanos), cs)

/-- The mark between date and time of day. -/
def readMark : List Char → Option (List Char)
  | c :: cs => if c == 'T' || c == 't' || c == ' ' then some cs else none
  | [] => none

/-- Reads an RFC 3339 text. -/
def parse? (s : String) : Option Instant := do
  let ((year, month, day), cs) ← readDate s.toList
  let cs ← readMark cs
  let ((hour, minute, second, nanos), cs) ← readTimeOfDay cs
  let (offset, cs) ← readZone (Text.dropBlanks cs)
  if (Text.dropBlanks cs).isEmpty then
    ofCivil year month day hour minute second nanos offset
  else none

/-! ## Writing -/

/-- The decimal text with zeros in front up to the width. -/
def padded (width n : Nat) : List Char :=
  let ds := Nat.toDigits 10 n
  List.replicate (width - ds.length) '0' ++ ds

/-- The year in four digits; a year of more digits or before year zero has a sign. -/
def yearText (year : Int) : List Char :=
  if 0 ≤ year then
    if year ≤ 9999 then padded 4 year.toNat else '+' :: padded 4 year.toNat
  else '-' :: padded 4 year.natAbs

/-- The fraction of a second in the fewest groups of three digits. -/
def fractionText (nanos : Nat) : List Char :=
  if nanos == 0 then []
  else if nanos % 1000000 == 0 then '.' :: padded 3 (nanos / 1000000)
  else if nanos % 1000 == 0 then '.' :: padded 6 (nanos / 1000)
  else '.' :: padded 9 nanos

/-- The RFC 3339 text in UTC. -/
def text (t : Instant) : String :=
  let days := Int.fdiv t.seconds 86400
  let ofDay := (t.seconds - days * 86400).toNat
  let (year, month, day) := civilFromDays days
  let leap := nanosPerSecond ≤ t.nanos
  let second := ofDay % 60 + (if leap then 1 else 0)
  let nanos := if leap then t.nanos - nanosPerSecond else t.nanos
  String.ofList (yearText year ++ '-' :: padded 2 month ++ '-' :: padded 2 day ++
    'T' :: padded 2 (ofDay / 3600) ++ ':' :: padded 2 (ofDay / 60 % 60) ++ ':' :: padded 2 second ++
    fractionText nanos ++ ['Z'])

/-- The JSON form. -/
def toJson (t : Instant) : Json.Value := .text t.text

/-- Reads the JSON form. -/
def decoder : Json.Decoder Instant := .filterMap parse? .text

end Instant

end Marketplace
