import Targeting.Decimal.Shortest

/-!
# Ways to write a double

All texts of a double show its shortest digits; they differ in where the exponent form starts, in
whether a whole number keeps a fraction `.0`, in the sign of the exponent and in the choice between
two equally near decimals. Each way is one value of `Style`.

* `Style.plain`: never an exponent, whole numbers without fraction (`100000000000000000000`, `0.5`);
* `Style.inspect`: for messages, exponent from `1e16` up and below `1e-4`, whole numbers as `1.0`;
* `Style.json`: exponent with a sign from `1e+16` up and below `1e-5`, whole numbers as `1.0`.
-/

namespace Targeting

/-- The decisions of one way to write a double. -/
structure Style where
  /-- The exponents written positionally, from the first up to but not with the second. -/
  positional : Option (Int × Int)
  /-- A whole number written positionally ends in `.0`. -/
  keepsFraction : Bool
  /-- A positive exponent has a plus sign. -/
  signsExponent : Bool
  tie : TieRule
  deriving DecidableEq

namespace Style

/-- For display and for SQL: positional throughout. -/
def plain : Style := ⟨none, false, false, .up⟩

/-- For messages that quote a value. -/
def inspect : Style := ⟨some (-4, 16), true, false, .up⟩

/-- For JSON texts. -/
def json : Style := ⟨some (-5, 16), true, true, .even⟩

/-- Zeros. -/
def zeros (n : Nat) : List Char := List.replicate n '0'

/-- Digits written out in full, the first at the place of `10 ^ exponent`. -/
def layOut (style : Style) (x : Scientific) : List Char :=
  if x.exponent < 0 then
    '0' :: '.' :: (zeros (-x.exponent - 1).toNat ++ x.digits)
  else
    let whole := x.exponent.toNat + 1
    if x.digits.length ≤ whole then
      x.digits ++ zeros (whole - x.digits.length) ++ (if style.keepsFraction then ['.', '0'] else [])
    else
      x.digits.take whole ++ '.' :: x.digits.drop whole

/-- Digits with an exponent. -/
def withExponent (style : Style) (x : Scientific) : List Char :=
  let mantissa := match x.digits with
    | d :: [] => [d]
    | d :: ds => d :: '.' :: ds
    | [] => []
  let sign := if x.exponent < 0 then ['-'] else if style.signsExponent then ['+'] else []
  mantissa ++ 'e' :: sign ++ Nat.toDigits 10 x.exponent.natAbs

/-- The text of a decimal. -/
def writeDigits (style : Style) (x : Scientific) : List Char :=
  match style.positional with
  | none => style.layOut x
  | some (lo, hi) =>
    if lo ≤ x.exponent ∧ x.exponent < hi then style.layOut x else style.withExponent x

/-- The digits of a finite double; zero is the one digit `0`. -/
def digitsOf (style : Style) (x : Binary64.Finite) : Scientific :=
  if x.isZero then { digits := ['0'], exponent := 0 } else Scientific.ofRank style.tie x.rank.val

/-- The text of a finite double. -/
def writeFinite (style : Style) (x : Binary64.Finite) : String :=
  String.ofList ((if x.negative then ['-'] else []) ++ style.writeDigits (style.digitsOf x))

/-- The text of a double. -/
def write (style : Style) : Binary64 → String
  | .nan => "NaN"
  | .infinite negative => if negative then "-inf" else "inf"
  | .finite x => style.writeFinite x

end Style

end Targeting
