import Targeting.Text.Numeral

/-!
# Calendar dates and times of day

Dates of the proleptic Gregorian calendar with astronomical years, and times of day to the nanosecond.
A year outside `0`–`9999` is written with a sign; a fraction of a second with three, six or nine
digits, as few as are exact. A leap second is second `60`.

* `Date`, `Clock`, `LocalTime`: a day, a time of day, both;
* `Date.toDays`, `Date.ofDays`: the count of days from 1 January 1970, and back;
* `text` of each.
-/

namespace Targeting.Calendar

/-- A day of the calendar. -/
structure Date where
  year : Int
  month : Nat
  day : Nat
  deriving DecidableEq

/-- A time of day; second `60` is a leap second. -/
structure Clock where
  hour : Nat
  minute : Nat
  second : Nat
  nanos : Nat
  deriving DecidableEq

/-- A day and a time of day, in no particular zone. -/
structure LocalTime where
  date : Date
  clock : Clock
  deriving DecidableEq

/-- The leap years. -/
def isLeap (year : Int) : Bool := year % 4 = 0 && (year % 100 ≠ 0 || year % 400 = 0)

/-- The number of days of a month. -/
def monthLength (year : Int) (month : Nat) : Nat :=
  match month with
  | 2 => if isLeap year then 29 else 28
  | 4 | 6 | 9 | 11 => 30
  | _ => 31

/-- The first and last year of the calendar. -/
def firstYear : Int := -262143

@[inherit_doc firstYear]
def lastYear : Int := 262142

namespace Date

/-- The day with the given year, month and day of the month, if the calendar has it. -/
def ofParts? (year : Int) (month day : Nat) : Option Date :=
  if firstYear ≤ year ∧ year ≤ lastYear ∧ 1 ≤ month ∧ month ≤ 12 ∧
      1 ≤ day ∧ day ≤ monthLength year month then
    some { year, month, day }
  else none

/-- Days since 1 January 1970, counted by years that begin in March and eras of 400 years. -/
def toDays (d : Date) : Int :=
  let y := if d.month ≤ 2 then d.year - 1 else d.year
  let era := y.fdiv 400
  let yearOfEra := y - era * 400
  let marchMonth : Int := if d.month ≤ 2 then (d.month : Int) + 9 else (d.month : Int) - 3
  let dayOfYear := (153 * marchMonth + 2) / 5 + (d.day : Int) - 1
  let dayOfEra := yearOfEra * 365 + yearOfEra / 4 - yearOfEra / 100 + dayOfYear
  era * 146097 + dayOfEra - 719468

/-- The day that is so many days after 1 January 1970. -/
def ofDays (n : Int) : Date :=
  let z := n + 719468
  let era := z.fdiv 146097
  let dayOfEra := z - era * 146097
  let yearOfEra := (dayOfEra - dayOfEra / 1460 + dayOfEra / 36524 - dayOfEra / 146096) / 365
  let dayOfYear := dayOfEra - (365 * yearOfEra + yearOfEra / 4 - yearOfEra / 100)
  let marchMonth := (5 * dayOfYear + 2) / 153
  let day := dayOfYear - (153 * marchMonth + 2) / 5 + 1
  let month := if marchMonth < 10 then marchMonth + 3 else marchMonth - 9
  let year := yearOfEra + era * 400 + (if month ≤ 2 then 1 else 0)
  { year, month := month.toNat, day := day.toNat }

/-- A year with four digits, and a sign if it needs more or is negative. -/
def yearText (year : Int) : String :=
  if 0 ≤ year ∧ year ≤ 9999 then Text.padded 4 year.toNat
  else (if year < 0 then "-" else "+") ++ Text.padded 4 year.natAbs

/-- The text of a day, such as `2024-01-15`. -/
def text (d : Date) : String :=
  yearText d.year ++ "-" ++ Text.padded 2 d.month ++ "-" ++ Text.padded 2 d.day

end Date

namespace Clock

/-- A time of day by its parts, if they are in range. -/
def ofParts? (hour minute second nanos : Nat) : Option Clock :=
  if hour ≤ 23 ∧ minute ≤ 59 ∧ second ≤ 60 then some { hour, minute, second, nanos } else none

/-- The fraction of a second with three, six or nine digits, or nothing. -/
def fractionText (nanos : Nat) : String :=
  if nanos = 0 then ""
  else if nanos % 1000000 = 0 then "." ++ Text.padded 3 (nanos / 1000000)
  else if nanos % 1000 = 0 then "." ++ Text.padded 6 (nanos / 1000)
  else "." ++ Text.padded 9 nanos

/-- The text of a time of day, such as `10:20:30.500`. -/
def text (c : Clock) : String :=
  Text.padded 2 c.hour ++ ":" ++ Text.padded 2 c.minute ++ ":" ++ Text.padded 2 c.second ++
    fractionText c.nanos

end Clock

/-- A day and a time of day with the given mark between them. -/
def LocalTime.textWith (mark : String) (t : LocalTime) : String := t.date.text ++ mark ++ t.clock.text

end Targeting.Calendar
