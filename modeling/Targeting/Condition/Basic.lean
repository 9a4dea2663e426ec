import Targeting.Comparison

/-!
# Conditions

Comparisons of columns, joined by "all of" and "any of". All of nothing is true, and any of nothing
is false.

* `Condition`, `Condition.conjunction`: conditions, and several of them as one;
* `Condition.sql`: a condition as SQL, with parentheses around every inner group of several members.
-/

namespace Targeting

/-- A condition on the rows of a query. -/
inductive Condition
  | compare (column : String) (c : Comparison)
  | all (cs : List Condition)
  | any (cs : List Condition)

namespace Condition

instance : Inhabited Condition := ⟨.all []⟩

/-- A group without members. -/
def isEmpty : Condition → Bool
  | all cs | any cs => cs.isEmpty
  | compare _ _ => false

/-- The members of several conditions that hold together; empty groups among them are skipped. -/
def conjuncts : List Condition → List Condition
  | [] => []
  | all cs :: rest => cs ++ conjuncts rest
  | any [] :: rest => conjuncts rest
  | c :: rest => c :: conjuncts rest

/-- Several conditions as one. -/
def conjunction (cs : List Condition) : Condition := all (conjuncts cs)

mutual

/-- The number of comparisons. -/
def count : Condition → Nat
  | compare _ _ => 1
  | all cs | any cs => counts cs

/-- The number of comparisons of several conditions. -/
def counts : List Condition → Nat
  | [] => 0
  | c :: rest => c.count + counts rest

end

/-- SQL between parentheses, where it is nested. -/
def enclosed (nested : Bool) (q : Sql) : Sql :=
  if nested then .text "(" :: (q ++ [.text ")"]) else q

mutual

/-- A condition as SQL, which is nested or stands alone. -/
def sqlAt (nested : Bool) : Condition → Sql
  | compare column c => c.sql column
  | all [] => [.text "1=1"]
  | all [c] => c.sqlAt true
  | all (c :: d :: rest) => enclosed nested (c.sqlAt true ++ sqlAfter " AND " (d :: rest))
  | any [] => [.text "1=0"]
  | any [c] => c.sqlAt true
  | any (c :: d :: rest) => enclosed nested (c.sqlAt true ++ sqlAfter " OR " (d :: rest))

/-- Further members of a group, each after the keyword of the group. -/
def sqlAfter (keyword : String) : List Condition → Sql
  | [] => []
  | c :: rest => .text keyword :: (c.sqlAt true ++ sqlAfter keyword rest)

end

/-- A condition as SQL. -/
def sql (c : Condition) : Sql := c.sqlAt false

/-- The clause for a condition; there is none for an empty group. -/
def whereClause (c : Condition) : Sql := if c.isEmpty then [] else .text " WHERE " :: c.sql

end Condition

end Targeting
