/-!
# Integers of 64 bits

The bounds of the integers of 64 bits, with sign and without.

* `leastInt64`, `greatestInt64`, `greatestUInt64`: the bounds;
* `FitsInt64`: an integer that has 64 bits with sign.
-/

namespace Targeting

/-- The least integer of 64 bits with sign. -/
abbrev leastInt64 : Int := -9223372036854775808

/-- The greatest integer of 64 bits with sign. -/
abbrev greatestInt64 : Int := 9223372036854775807

/-- The greatest integer of 64 bits without sign. -/
abbrev greatestUInt64 : Nat := 18446744073709551615

/-- An integer of 64 bits with sign. -/
abbrev FitsInt64 (n : Int) : Prop := leastInt64 ≤ n ∧ n ≤ greatestInt64

end Targeting
