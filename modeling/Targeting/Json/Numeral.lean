import Targeting.Json.Basic
import Targeting.Text.Numeral

/-!
# Numerals of a JSON text

A numeral without fraction and exponent stands for an integer if that has at most 64 bits and is not
a negated zero; every other numeral stands for a double. The double is found from the leading digits
that fit 64 bits and a power of ten: the digits are rounded, then multiplied or divided by the
rounded power, in steps of `10 ^ 308` below. A numeral beyond every double stands for nothing.

* `Numeral`, `Numeral.take`: a numeral and how it is taken off the front of a text;
* `Numeral.number?`: the number it stands for.
-/

namespace Targeting.Json

/-- A numeral by its parts: digits before and after the point, and the exponent. -/
structure Numeral where
  negative : Bool
  whole : List Char
  fraction : List Char
  exponent : Option Int
  deriving DecidableEq

namespace Numeral

/-- The digits before the point at the front of a text: a single zero, or no zero in front. -/
def takeWhole : List Char → Option (List Char × List Char)
  | '0' :: c :: cs => if c.isDigit then none else some (['0'], c :: cs)
  | cs =>
    let ds := cs.takeWhile Char.isDigit
    if ds = [] then none else some (ds, cs.dropWhile Char.isDigit)

/-- A point and at least one digit, if there is a point. -/
def takeFraction : List Char → Option (List Char × List Char)
  | '.' :: cs =>
    let ds := cs.takeWhile Char.isDigit
    if ds = [] then none else some (ds, cs.dropWhile Char.isDigit)
  | cs => some ([], cs)

/-- The digits of an exponent. -/
def takeExponentDigits (negative : Bool) (cs : List Char) : Option (Option Int × List Char) :=
  (Text.digits? (cs.takeWhile Char.isDigit)).map fun n =>
    (some (if negative then -(n : Int) else n), cs.dropWhile Char.isDigit)

/-- An exponent with at least one digit, if there is a letter for one. -/
def takeExponent : List Char → Option (Option Int × List Char)
  | c :: cs =>
    if c = 'e' || c = 'E' then
      match cs with
      | '+' :: cs => takeExponentDigits false cs
      | '-' :: cs => takeExponentDigits true cs
      | cs => takeExponentDigits false cs
    else some (none, c :: cs)
  | [] => some (none, [])

/-- The parts of a numeral after its sign. -/
def takeUnsigned (negative : Bool) (cs : List Char) : Option (Numeral × List Char) := do
  let (whole, cs) ← takeWhole cs
  let (fraction, cs) ← takeFraction cs
  let (exponent, cs) ← takeExponent cs
  return ({ negative, whole, fraction, exponent }, cs)

/-- The numeral at the front of a text and what follows it. -/
def take : List Char → Option (Numeral × List Char)
  | '-' :: cs => takeUnsigned true cs
  | cs => takeUnsigned false cs

theorem dropDigits_length (cs : List Char) : (cs.dropWhile Char.isDigit).length ≤ cs.length :=
  (List.dropWhile_sublist _).length_le

theorem takeWhole_length {cs ds rest : List Char} (h : takeWhole cs = some (ds, rest)) :
    rest.length ≤ cs.length := by
  have hd := dropDigits_length cs
  unfold takeWhole at h
  split at h <;> grind

theorem takeFraction_length {cs ds rest : List Char} (h : takeFraction cs = some (ds, rest)) :
    rest.length ≤ cs.length := by
  unfold takeFraction at h
  split at h
  · next cs => have := dropDigits_length cs; grind
  · grind

theorem takeExponentDigits_length {b : Bool} {cs rest : List Char} {e : Option Int}
    (h : takeExponentDigits b cs = some (e, rest)) : rest.length ≤ cs.length := by
  have := dropDigits_length cs
  simp only [takeExponentDigits, Option.map_eq_some_iff, Prod.mk.injEq] at h
  obtain ⟨_, _, _, rfl⟩ := h
  exact this

theorem takeExponent_length {cs rest : List Char} {e : Option Int}
    (h : takeExponent cs = some (e, rest)) : rest.length ≤ cs.length := by
  unfold takeExponent at h
  split at h
  · split at h
    · split at h <;> have := takeExponentDigits_length h <;> simp_all <;> omega
    · grind
  · grind

theorem take_length {cs rest : List Char} {x : Numeral} (h : take cs = some (x, rest)) :
    rest.length ≤ cs.length := by
  have unsigned {b : Bool} {cs : List Char} (h : takeUnsigned b cs = some (x, rest)) :
      rest.length ≤ cs.length := by
    simp only [takeUnsigned, Option.bind_eq_bind, Option.bind_eq_some_iff, Option.pure_def,
      Option.some.injEq, Prod.mk.injEq, Prod.exists] at h
    obtain ⟨_, _, h₁, _, _, h₂, _, _, h₃, _, rfl⟩ := h
    have := takeWhole_length h₁
    have := takeFraction_length h₂
    have := takeExponent_length h₃
    omega
  unfold take at h
  split at h
  · have := unsigned h; simp only [List.length_cons]; omega
  · exact unsigned h

/-- Digits read after a value as long as it fits 64 bits: the value and how many were read. -/
def accumulate (value : Nat) : List Char → Nat × Nat
  | [] => (value, 0)
  | c :: cs =>
    let next := 10 * value + (c.toNat - 48)
    if next ≤ greatestUInt64 then
      let (v, n) := accumulate next cs
      (v, n + 1)
    else (value, 0)

/-- The significand of 64 bits and the power of ten of a numeral. -/
def scaled (x : Numeral) : Nat × Int :=
  let (value, read) := accumulate 0 x.whole
  let (value, more) := accumulate value x.fraction
  (value, ((x.whole.length - read : Nat) : Int) - more + x.exponent.getD 0)

/-- The double nearest to a power of ten. -/
def tenPower (n : Nat) : Binary64 := Binary64.ofRatio false (tenTo n) 1

/-- A double times a power of ten that is itself a double, with one rounding. -/
def timesTen (x : Binary64.Finite) (n : Nat) : Option Binary64.Finite :=
  ((tenPower n).finite?.map x.mul).bind Binary64.finite?

/-- A double divided by a power of ten that is itself a double, with one rounding. -/
def overTen (x : Binary64.Finite) (n : Nat) : Option Binary64.Finite :=
  ((tenPower n).finite?.map x.div).bind Binary64.finite?

/-- A double divided by the largest such power of ten so many times, or until it is zero. -/
def overLargest : Nat → Binary64.Finite → Option Binary64.Finite
  | 0, x => some x
  | steps + 1, x => if x.isZero then some x else (overTen x 308).bind (overLargest steps)

/-- A double times a power of ten, with a rounding at each step; nothing where it is too large. -/
def timesPower (x : Binary64.Finite) (e : Int) : Option Binary64.Finite :=
  let n := e.natAbs
  if 0 ≤ e then
    if n ≤ 308 then timesTen x n else if x.isZero then some x else none
  else
    let steps := (n - 1) / 308
    (overLargest steps x).bind fun y => if y.isZero then some y else overTen y (n - 308 * steps)

/-- The double that a numeral stands for, if it is in range. -/
def float? (x : Numeral) : Option Binary64.Finite :=
  let (value, e) := x.scaled
  ((Binary64.ofRatio false value 1).finite?.bind fun y => timesPower y e).map
    (Binary64.Finite.withSign x.negative)

/-- The integer that a numeral stands for, if it has neither fraction nor exponent and fits. -/
def word? (x : Numeral) : Option Word :=
  if x.fraction = [] ∧ x.exponent = none then
    (Text.digits? x.whole).bind fun n =>
      let k : Int := if x.negative then -(n : Int) else n
      if h : (leastInt64 ≤ k ∧ k ≤ greatestUInt64) ∧ ¬(x.negative ∧ n = 0) then some ⟨k, h.1⟩ else none
  else none

/-- The number that a numeral stands for, if it is in range. -/
def number? (x : Numeral) : Option Number :=
  match x.word? with
  | some n => some (.integer n)
  | none => x.float?.map .float

end Numeral

end Targeting.Json
