import Targeting.Decimal.Power

/-!
# Double-precision numbers

A finite double is a whole multiple of the smallest positive one, `2 ^ -1074`. The nonnegative finite
doubles in increasing order are numbered by their **rank**; the sign is kept apart, so that zero has
two signs. All arithmetic here is exact arithmetic on natural numbers followed by one rounding.

* `Binary64`, `Binary64.Finite`: a double, and a finite one by sign and rank;
* `unitsOfRank`: the multiple of the smallest double that a rank stands for;
* `rankOfRatio`: the rank nearest to a ratio of naturals, a tie going to the even rank;
* `Binary64.ofRatio`, `Finite.mul`, `Finite.div`, `Binary64.ofInt`: correctly rounded operations.
-/

namespace Targeting

namespace Binary64

/-- The number of nonnegative finite doubles. -/
def rankCount : Nat := 2047 * twoTo 52

/-- The multiple of `2 ^ -1074` that stands at a rank. -/
def unitsOfRank (r : Nat) : Nat :=
  let e := r / twoTo 52
  let f := r % twoTo 52
  if e = 0 then f else (twoTo 52 + f) * twoTo (e - 1)

/-- The natural number nearest to `num / den`, a tie going to the even one. -/
def roundEven (num den : Nat) : Nat :=
  let q := num / den
  let r := num % den
  if 2 * r < den then q else if den < 2 * r then q + 1 else q + q % 2

/-- The rank nearest to `num / den`, counted past the last finite one where the ratio is too large. -/
def rankOfRatio (num den : Nat) : Nat :=
  let units := num * twoTo 1074
  let k := units / den
  let shift := if k < twoTo 53 then 0 else k.log2 - 52
  shift * twoTo 52 + roundEven units (den * twoTo shift)

/-- A finite double by its sign and rank. -/
structure Finite where
  negative : Bool
  rank : Fin rankCount
  deriving DecidableEq

end Binary64

/-- A double-precision number. -/
inductive Binary64
  | nan
  | infinite (negative : Bool)
  | finite (x : Binary64.Finite)
  deriving DecidableEq

namespace Binary64

/-- The double nearest to a signed ratio; infinite where the ratio rounds past the last finite one. -/
def ofRatio (negative : Bool) (num den : Nat) : Binary64 :=
  let r := rankOfRatio num den
  if h : r < rankCount then .finite ⟨negative, r, h⟩ else .infinite negative

/-- The double nearest to an integer. -/
def ofInt (n : Int) : Binary64 := ofRatio (n < 0) n.natAbs 1

/-- The finite part of a double, if it is finite. -/
def finite? : Binary64 → Option Finite
  | .finite x => some x
  | _ => none

namespace Finite

/-- The magnitude as a multiple of `2 ^ -1074`. -/
def units (x : Finite) : Nat := unitsOfRank x.rank.val

/-- Zero, of either sign. -/
def isZero (x : Finite) : Bool := x.rank.val = 0

/-- The rounded product. -/
def mul (x y : Finite) : Binary64 :=
  ofRatio (x.negative != y.negative) (x.units * y.units) (twoTo 2148)

/-- The rounded quotient by a double other than zero. -/
def div (x y : Finite) : Binary64 := ofRatio (x.negative != y.negative) x.units y.units

/-- The whole number that a double is exactly, if it is one. -/
def toInt? (x : Finite) : Option Int :=
  if x.units % twoTo 1074 = 0 then
    let n : Int := ((x.units / twoTo 1074 : Nat) : Int)
    some (if x.negative then -n else n)
  else none

/-- The same magnitude with the given sign. -/
def withSign (negative : Bool) (x : Finite) : Finite := { x with negative }

/-- Positive zero. -/
def zero : Finite := ⟨false, 0, by decide⟩

end Finite

end Binary64

end Targeting
