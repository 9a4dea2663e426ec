/-!
# Decimal numerals

Whole numbers in decimal: ASCII digits only, with an optional sign where the reader allows one.

* `digit?`, `digits?`: the value of a digit and of a nonempty run of digits;
* `natural?`: digits with an optional `+`, up to a bound;
* `integer?`: digits with an optional sign, between two bounds.
-/

namespace Targeting.Text

/-- The value of an ASCII digit. -/
def digit? (c : Char) : Option Nat := if c.isDigit then some (c.toNat - 48) else none

/-- The value of a run of digits read after `acc`; nothing if another character occurs. -/
def digitsFrom? (acc : Nat) : List Char → Option Nat
  | [] => some acc
  | c :: cs => (digit? c).bind fun d => digitsFrom? (10 * acc + d) cs

/-- The value of a nonempty run of digits. -/
def digits? : List Char → Option Nat
  | [] => none
  | cs => digitsFrom? 0 cs

/-- A natural number up to `bound`, optionally with a plus sign. -/
def natural? (bound : Nat) (s : String) : Option Nat :=
  let read cs := (digits? cs).filter (· ≤ bound)
  match s.toList with
  | '+' :: cs => read cs
  | cs => read cs

/-- An integer between `lo` and `hi`, optionally with a sign. -/
def integer? (lo hi : Int) (s : String) : Option Int :=
  let within (n : Int) : Option Int := if lo ≤ n ∧ n ≤ hi then some n else none
  match s.toList with
  | '+' :: cs => (digits? cs).bind fun n => within n
  | '-' :: cs => (digits? cs).bind fun n => within (-(n : Int))
  | cs => (digits? cs).bind fun n => within n

/-- A number with zeros in front up to a width. -/
def padded (width n : Nat) : String :=
  let ds := toString n
  String.ofList (List.replicate (width - ds.length) '0') ++ ds

end Targeting.Text
