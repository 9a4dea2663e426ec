/-!
# White space

White space is the Unicode property `White_Space`, not only its ASCII part: names and numbers are
trimmed by it before they are read.

* `isBlank`: the class;
* `trimBlank`: text without white space at either end.
-/

namespace Targeting.Text

/-- White space in the sense of Unicode. -/
def isBlank (c : Char) : Bool :=
  let n := c.toNat
  (9 ≤ n && n ≤ 13) || n = 0x20 || n = 0x85 || n = 0xA0 || n = 0x1680 ||
    (0x2000 ≤ n && n ≤ 0x200A) || n = 0x2028 || n = 0x2029 || n = 0x202F || n = 0x205F || n = 0x3000

/-- Characters without white space in front. -/
def dropBlank (cs : List Char) : List Char := cs.dropWhile isBlank

/-- Characters without white space at either end. -/
def trimBlankChars (cs : List Char) : List Char := (dropBlank (dropBlank cs).reverse).reverse

/-- Text without white space at either end. -/
def trimBlank (s : String) : String := String.ofList (trimBlankChars s.toList)

end Targeting.Text
