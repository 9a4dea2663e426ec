import Targeting.Decimal.Binary64

/-!
# Shortest decimal digits

A finite double other than zero is written with the fewest significant digits that still read back
as the same double; of the decimals with that many digits the nearest one is taken.

The reals that read back as a double form an interval around it, bounded by the midpoints to its two
neighbours and closed exactly if its rank is even. For one digit, two digits, and so on, the two
points next to the double on the decimal grid of that many digits are tried; the first grid with a
point in the interval wins.

* `Scientific`: digits and the exponent of the leading one;
* `Scientific.ofRank`: the shortest digits of a rank.
-/

namespace Targeting

/-- How a decimal is chosen when two of them are equally near. -/
inductive TieRule
  | up
  | even
  deriving DecidableEq

/-- A decimal in scientific form: its digits, the first of which counts `10 ^ exponent`. -/
structure Scientific where
  digits : List Char
  exponent : Int
  deriving DecidableEq

namespace Scientific

/-- The power of ten that makes every double at least one, with room for seventeen digits. -/
def scale : Nat := 340

/-- The double at a rank in units of `10 ^ -scale / 2 ^ 1075`. -/
def scaledValue (r : Nat) : Nat := 2 * Binary64.unitsOfRank r * tenTo scale

/-- The midpoint below a rank in the same units. -/
def scaledLow (r : Nat) : Nat :=
  (Binary64.unitsOfRank (r - 1) + Binary64.unitsOfRank r) * tenTo scale

/-- The midpoint above a rank in the same units. -/
def scaledHigh (r : Nat) : Nat :=
  (Binary64.unitsOfRank r + Binary64.unitsOfRank (r + 1)) * tenTo scale

/-- The point at `n` of the same units reads back as the double at rank `r`. -/
def readsBack (r n : Nat) : Bool :=
  if r % 2 = 0 then scaledLow r ≤ n && n ≤ scaledHigh r else scaledLow r < n && n < scaledHigh r

/-- The number of decimal digits. -/
def digitCount (n : Nat) : Nat := (Nat.toDigits 10 n).length

/-- The exponent of the leading decimal digit of the double at a rank, counted from `-scale`. -/
def leading (r : Nat) : Nat := digitCount (scaledValue r / twoTo 1075) - 1

/-- The grid points next to the double at rank `r` with `n` digits: the lower one and the step. -/
def gridBelow (r n : Nat) : Nat × Nat :=
  let step := tenTo (leading r - (n - 1)) * twoTo 1075
  (scaledValue r / step, step)

/-- The nearer of the two neighbours `k` and `k + 1` on a grid. -/
def nearer (tie : TieRule) (value step k : Nat) : Nat :=
  let twice := 2 * (value - k * step)
  if twice < step then k
  else if step < twice then k + 1
  else match tie with
    | .up => k + 1
    | .even => k + k % 2

/-- A point with `n` digits that reads back as the double at rank `r`, if there is one. -/
def candidate (tie : TieRule) (r n : Nat) : Option Nat :=
  let (k, step) := gridBelow r n
  match readsBack r (k * step), readsBack r ((k + 1) * step) with
  | true, true => some (nearer tie (scaledValue r) step k)
  | true, false => some k
  | false, true => some (k + 1)
  | false, false => none

/-- Digits without zeros at the end. -/
def trimZeros (ds : List Char) : List Char := (ds.reverse.dropWhile (· = '0')).reverse

/-- A number with `n` significant digits, the leading one at the place of the double at rank `r`. -/
def ofGrid (r n k : Nat) : Scientific :=
  let ds := Nat.toDigits 10 k
  { digits := trimZeros ds, exponent := (leading r : Int) - scale + ds.length - n }

/-- The shortest digits that read back as the double at a rank other than zero. -/
def ofRank (tie : TieRule) (r : Nat) : Scientific :=
  let tries := (List.range 17).findSome? fun i => (candidate tie r (i + 1)).map (ofGrid r (i + 1))
  tries.getD { digits := ['0'], exponent := 0 }

end Scientific

end Targeting
