import Targeting.Text.Numeral

/-!
# Identities

A universally unique identifier is 32 hexadecimal digits, written in groups of 8, 4, 4, 4 and 12 with
hyphens in between. It may be read without the hyphens, between braces or as a name with the prefix
`urn:uuid:`, and with digits of either case; it is written with small letters.

* `Identity`, `Identity.ofText?`, `Identity.text`.
-/

namespace Targeting

/-- A universally unique identifier, by its 32 digits. -/
structure Identity where
  digits : List Char
  deriving DecidableEq

namespace Identity

/-- The identifier of zeros. -/
def nil : Identity := ⟨List.replicate 32 '0'⟩

/-- A hexadecimal digit. -/
def isHexDigit (c : Char) : Bool :=
  c.isDigit || ('a' ≤ c && c ≤ 'f') || ('A' ≤ c && c ≤ 'F')

/-- The identifier with the given digits. -/
def ofDigits? (cs : List Char) : Option Identity :=
  if cs.length = 32 && cs.all isHexDigit then some ⟨cs.map Char.toLower⟩ else none

/-- The positions of the hyphens. -/
def hyphens : List Nat := [8, 13, 18, 23]

/-- The identifier of a text with hyphens. -/
def ofGroups? (cs : List Char) : Option Identity :=
  if cs.length = 36 && hyphens.all fun i => cs[i]? == some '-' then
    ofDigits? (cs.zipIdx.filterMap fun (c, i) => if hyphens.contains i then none else some c)
  else none

/-- The identifier that a text names. -/
def ofText? (s : String) : Option Identity :=
  match s.toList with
  | 'u' :: 'r' :: 'n' :: ':' :: 'u' :: 'u' :: 'i' :: 'd' :: ':' :: cs => ofGroups? cs
  | '\x7b' :: cs => if cs.getLast? = some '\x7d' then ofGroups? cs.dropLast else none
  | cs => (ofDigits? cs).orElse fun _ => ofGroups? cs

/-- The text of an identifier. -/
def text (i : Identity) : String :=
  let group (start length : Nat) := String.ofList ((i.digits.drop start).take length)
  String.intercalate "-" [group 0 8, group 8 4, group 12 4, group 16 4, group 20 12]

end Identity

end Targeting
