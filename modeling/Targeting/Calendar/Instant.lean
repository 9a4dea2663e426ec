import Targeting.Calendar.Reader

/-!
# Instants

A point of time, counted in seconds from 1 January 1970 UTC and nanoseconds. Within a leap second the
seconds stand still and the nanoseconds go on past one thousand million.

* `Instant.ofText?`: a date, a time of day and an offset from UTC, as in RFC 3339 with some freedom;
* `Instant.text`: the same instant in UTC;
* `Instant.since`: the nanoseconds between two instants.
-/

namespace Targeting.Calendar

/-- A point of time. -/
structure Instant where
  seconds : Int
  nanos : Nat
  deriving DecidableEq

namespace Instant

/-- The instant at which clocks on UTC show the given local time. -/
def ofUtc (t : LocalTime) : Instant :=
  let c := t.clock
  let leap := c.second = 60
  { seconds := t.date.toDays * 86400 + (c.hour * 3600 + c.minute * 60 + min c.second 59 : Nat)
    nanos := if leap then c.nanos + 1000000000 else c.nanos }

/-- What clocks on UTC show at an instant. -/
def toUtc (i : Instant) : LocalTime :=
  let secondOfDay := (i.seconds.fmod 86400).toNat
  { date := Date.ofDays (i.seconds.fdiv 86400)
    clock :=
      { hour := secondOfDay / 3600
        minute := secondOfDay / 60 % 60
        second := secondOfDay % 60 + i.nanos / 1000000000
        nanos := i.nanos % 1000000000 } }

/-- The text of an instant in UTC, such as `2024-06-01T00:00:00Z`. -/
def text (i : Instant) : String := i.toUtc.textWith "T" ++ "Z"

/-- Colons and white space between the hours and the minutes of an offset. -/
def dropColons (cs : List Char) : List Char := cs.dropWhile fun c => c = ':' || Text.isBlank c

/-- Hours and minutes of an offset, in seconds. -/
def takeOffsetParts : List Char → Option (Int × List Char)
  | h :: h' :: cs => do
    let hours ← Text.digits? [h, h']
    match dropColons cs with
    | m :: m' :: cs =>
      let minutes ← Text.digits? [m, m']
      if minutes ≤ 59 then some (((hours * 3600 + minutes * 60 : Nat) : Int), cs) else none
    | _ => none
  | _ => none

/-- An offset from UTC in seconds: `Z`, `UTC`, or a sign with hours and minutes. -/
def takeOffset (cs : List Char) : Option (Int × List Char) :=
  let signed : List Char → Option (Int × List Char)
    | 'Z' :: r | 'z' :: r => some (0, r)
    | '+' :: r => takeOffsetParts r
    | '-' :: r | '\u2212' :: r => (takeOffsetParts r).map fun (n, r) => (-n, r)
    | _ => none
  match cs with
  | u :: t :: c :: r =>
    if u.toLower = 'u' && t.toLower = 't' && c.toLower = 'c' then some (0, r) else signed cs
  | _ => signed cs

/-- A date and a time of day are parted by a letter `T` or one space. -/
def takeParting : List Char → Option (List Char)
  | 'T' :: cs | 't' :: cs | ' ' :: cs => some cs
  | _ => none

/-- The instant that a text names. -/
def ofText? (s : String) : Option Instant := do
  let (date, cs) ← takeDate s.toList
  let (clock, cs) ← takeClock (← takeParting cs)
  let (offset, cs) ← takeOffset cs
  let atUtc := ofUtc { date, clock }
  let i : Instant := { atUtc with seconds := atUtc.seconds - offset }
  let year := i.toUtc.date.year
  if Text.dropBlank cs = [] ∧ -86400 < offset ∧ offset < 86400 ∧
      firstYear ≤ year ∧ year ≤ lastYear then some i else none

/-- The second that is counted twice between two instants when one of them lies in a leap second. -/
def leapBetween (later earlier : Instant) : Int :=
  let a := later.seconds.fmod 86400
  let b := earlier.seconds.fmod 86400
  if b < a then (if 1000000000 ≤ earlier.nanos then 1 else 0)
  else if a < b then (if 1000000000 ≤ later.nanos then -1 else 0)
  else 0

/-- The nanoseconds from one instant to another. -/
def since (later earlier : Instant) : Int :=
  (later.seconds - earlier.seconds + leapBetween later earlier) * 1000000000 +
    ((later.nanos : Int) - earlier.nanos)

end Instant

end Targeting.Calendar
