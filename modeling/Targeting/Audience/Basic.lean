import Targeting.Audience.Catalog
import Targeting.Identifier
import Targeting.Role

/-!
# Audiences

An audience places objects under aliases and says how they may be joined. The first object is the
root. A relationship names the two aliases it ties together, or is known only by its condition; then
it concerns every alias by which the condition qualifies a column. A placement calls its alias its label.

* `Placement`, `Relationship`, `Audience`;
* `refersTo`: a condition qualifies a column by an alias;
* `Relationship.mentions`: a relationship concerns an alias; `mentions_iff_mem_ends`, `mentions_eq_refersTo`.
-/

namespace Targeting

/-- An object under an alias, perhaps with a role. -/
structure Placement where
  object : CatalogObject
  label : String
  role : Option Role := none
  deriving DecidableEq

/-- A column of a placed object. -/
def Placement.qualify (p : Placement) (column : String) : String := p.label ++ "." ++ column

/-- Whether rows without a partner are kept. -/
inductive JoinKind
  | inner
  | left
  deriving DecidableEq

/-- The name of a join kind. -/
def JoinKind.name : JoinKind → String
  | .inner => "inner"
  | .left => "left"

/-- The keyword of a join kind. -/
def JoinKind.keyword : JoinKind → String
  | .inner => "INNER JOIN"
  | .left => "LEFT JOIN"

/-- The join kinds by name. -/
def JoinKind.byName : List (String × JoinKind) := [JoinKind.inner, .left].map fun k => (k.name, k)

/-- How objects may be joined. -/
structure Relationship where
  first : Option String := none
  second : Option String := none
  condition : String
  kind : JoinKind := .inner
  deriving DecidableEq

/-- An alias with a dot occurs at the front, or after a character that no name has. -/
def refersToChars (mark : List Char) : Bool → List Char → Bool
  | boundary, [] => boundary && mark.isPrefixOf []
  | boundary, c :: cs =>
    (boundary && mark.isPrefixOf (c :: cs)) || refersToChars mark (!isNameChar c) cs

/-- A condition qualifies a column by an alias. -/
def refersTo (condition label : String) : Bool :=
  refersToChars (label.toList ++ ['.']) true condition.toList

namespace Relationship

/-- The relationship names at least one of its aliases. -/
def hasEnds (r : Relationship) : Bool := r.first.isSome || r.second.isSome

/-- The aliases that a relationship names. -/
def ends (r : Relationship) : List String := r.first.toList ++ r.second.toList

/-- The relationship concerns an alias: it names it, or its condition refers to it. -/
def mentions (r : Relationship) (label : String) : Bool :=
  if r.hasEnds then r.first == some label || r.second == some label
  else refersTo r.condition label

variable {r : Relationship} {label : String}

theorem hasEnds_iff : r.hasEnds = true ↔ r.ends ≠ [] := by
  cases hfirst : r.first <;> cases hsecond : r.second <;> simp [hasEnds, ends, hfirst, hsecond]

/-- A relationship that names aliases concerns just these. -/
theorem mentions_iff_mem_ends (h : r.ends ≠ []) : r.mentions label = true ↔ label ∈ r.ends := by
  rw [mentions, if_pos (hasEnds_iff.mpr h), Bool.or_eq_true, beq_iff_eq, beq_iff_eq, ends, List.mem_append,
    Option.mem_toList, Option.mem_toList]

/-- A relationship that names no alias concerns those to which its condition refers. -/
theorem mentions_eq_refersTo (h : r.ends = []) : r.mentions label = refersTo r.condition label :=
  if_neg fun hends => hasEnds_iff.mp hends h

end Relationship

/-- Objects under aliases and the relationships between them. -/
structure Audience where
  objects : List Placement := []
  relationships : List Relationship := []
  joinKey : Option String := none
  deriving DecidableEq

namespace Audience

/-- The root. -/
def root? (a : Audience) : Option Placement := a.objects.head?

/-- The object under an alias. -/
def object? (a : Audience) (label : String) : Option Placement :=
  a.objects.find? (·.label = label)

end Audience

end Targeting
