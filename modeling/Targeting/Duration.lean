import Targeting.Decimal.Power
import Targeting.Text.Numeral

/-!
# Spans of time

A span is counted in nanoseconds. It is written in the largest unit of which it has at least one,
with a fraction that has no zeros at its end: `1.5s`, `250ms`, `999.999µs`, `0ns`.
-/

namespace Targeting

/-- A span of time. -/
structure Duration where
  nanos : Nat
  deriving DecidableEq

namespace Duration

/-- A span of seconds and nanoseconds. -/
def ofParts (seconds nanos : Nat) : Duration := ⟨seconds * 1000000000 + nanos⟩

/-- A span of milliseconds. -/
def ofMillis (n : Nat) : Duration := ⟨n * 1000000⟩

/-- The whole milliseconds of a span. -/
def toMillis (d : Duration) : Nat := d.nanos / 1000000

/-- A fraction of a unit that has `10 ^ places` parts, without zeros at its end. -/
def fraction (places parts : Nat) : List Char :=
  let ds := ((Text.padded places parts).toList.reverse.dropWhile (· = '0')).reverse
  if ds = [] then [] else '.' :: ds

/-- A span in a unit of `10 ^ places` nanoseconds. -/
def textIn (places : Nat) (unit : String) (d : Duration) : String :=
  toString (d.nanos / tenTo places) ++ String.ofList (fraction places (d.nanos % tenTo places)) ++ unit

/-- The text of a span. -/
def text (d : Duration) : String :=
  if tenTo 9 ≤ d.nanos then d.textIn 9 "s"
  else if tenTo 6 ≤ d.nanos then d.textIn 6 "ms"
  else if tenTo 3 ≤ d.nanos then d.textIn 3 "µs"
  else d.textIn 0 "ns"

end Duration

end Targeting
