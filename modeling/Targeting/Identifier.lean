/-!
# Identifiers

The names that may stand in SQL unquoted: a letter or underscore, then letters, digits and underscores,
all of them ASCII. A table may be several of them with dots in between.

* `isIdentifier`, `isQualified`;
* `sanitize`: any text made into characters of identifiers.
-/

namespace Targeting

/-- A letter or an underscore. -/
def isNameStart (c : Char) : Bool := c.isAlpha || c = '_'

/-- A letter, a digit or an underscore. -/
def isNameChar (c : Char) : Bool := c.isAlphanum || c = '_'

/-- The characters of an identifier. -/
def isIdentifierChars : List Char → Bool
  | [] => false
  | c :: cs => isNameStart c && cs.all isNameChar

/-- A single identifier. -/
def isIdentifier (s : String) : Bool := isIdentifierChars s.toList

/-- The parts between dots. -/
def dotParts : List Char → List (List Char)
  | [] => [[]]
  | c :: cs =>
    match dotParts cs with
    | [] => [[c]]
    | part :: parts => if c = '.' then [] :: part :: parts else (c :: part) :: parts

/-- Identifiers with dots in between. -/
def isQualified (s : String) : Bool := (dotParts s.toList).all isIdentifierChars

/-- Every character that no identifier has is replaced by an underscore. -/
def sanitize (s : String) : String :=
  String.ofList (s.toList.map fun c => if isNameChar c then c else '_')

theorem sanitize_eq_self {s : String} (h : ∀ c ∈ s.toList, isNameChar c = true) : sanitize s = s := by
  rw [sanitize, List.map_congr_left fun c hc => if_pos (h c hc), List.map_id', String.ofList_toList]

/-- The part after the last dot. -/
def lastPart (s : String) : String := String.ofList ((dotParts s.toList).getLastD [])

end Targeting
