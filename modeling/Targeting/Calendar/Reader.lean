import Targeting.Calendar.Date
import Targeting.Decimal.Power
import Targeting.Text.Blank

/-!
# Reading dates and times

A date is read as year, month and day between hyphens, a time of day as hours, minutes and seconds
between colons with an optional fraction. White space is allowed around each part. A year of more
than four digits needs a sign; month, day, hour, minute and second have one or two digits.

* `Date.ofText?`, `LocalTime.ofText?`: the whole text is a date, or a date and a time of day;
* `takeDate`, `takeClock`: the same at the front of a text, with what follows.
-/

namespace Targeting.Calendar

open Targeting.Text

/-- Up to `most` digits at the front, at least one: their value and what follows. -/
def takeNatural (most : Nat) (cs : List Char) : Option (Nat × List Char) :=
  let ds := (cs.take most).takeWhile Char.isDigit
  (digits? ds).map fun n => (n, cs.drop ds.length)

/-- One or two digits after white space. -/
def takePart (cs : List Char) : Option (Nat × List Char) := takeNatural 2 (dropBlank cs)

/-- A year after white space: four digits at most, any number of them after a sign. -/
def takeYear (cs : List Char) : Option (Int × List Char) :=
  match dropBlank cs with
  | '-' :: r => (takeNatural r.length r).map fun (n, r) => (-(n : Int), r)
  | '+' :: r => (takeNatural r.length r).map fun (n, r) => ((n : Int), r)
  | r => (takeNatural 4 r).map fun (n, r) => ((n : Int), r)

/-- One given character, after white space. -/
def takeMark (mark : Char) (cs : List Char) : Option (List Char) :=
  match dropBlank cs with
  | c :: r => if c = mark then some r else none
  | [] => none

/-- A date at the front. -/
def takeDate (cs : List Char) : Option (Date × List Char) := do
  let (year, cs) ← takeYear cs
  let (month, cs) ← takePart (← takeMark '-' cs)
  let (day, cs) ← takePart (← takeMark '-' cs)
  let date ← Date.ofParts? year month day
  return (date, cs)

/-- A fraction of a second at the front, in nanoseconds; digits after the ninth do not count. -/
def takeFraction : List Char → Option (Nat × List Char)
  | '.' :: cs => do
    let (n, r) ← takeNatural 9 cs
    return (n * tenTo (9 - (cs.length - r.length)), r.dropWhile Char.isDigit)
  | cs => some (0, cs)

/-- A time of day at the front, with white space after it. -/
def takeClock (cs : List Char) : Option (Clock × List Char) := do
  let (hour, cs) ← takePart cs
  let (minute, cs) ← takePart (← takeMark ':' cs)
  let (second, cs) ← takePart (← takeMark ':' cs)
  let (nanos, cs) ← takeFraction cs
  let clock ← Clock.ofParts? hour minute second nanos
  return (clock, dropBlank cs)

/-- The date that a text holds. -/
def Date.ofText? (s : String) : Option Date := do
  let (date, rest) ← takeDate s.toList
  if dropBlank rest = [] then some date else none

/-- The date and time of day that a text holds, with `T` between them. -/
def LocalTime.ofText? (s : String) : Option LocalTime := do
  let (date, rest) ← takeDate s.toList
  let (clock, rest) ← takeClock (← takeMark 'T' rest)
  if rest = [] then some { date, clock } else none

end Targeting.Calendar
