import Targeting.Filter.Problem
import Targeting.Sql

/-!
# Comparisons

What a filter asks of a column, with its operand as a value. Operators that ask for one of several
values take a list, and compare with a single value otherwise; the others take no list.

* `Comparison`, `Comparison.build`: a comparison, and that of an operator with an operand;
* `Comparison.sql`: its condition on a column.
-/

namespace Targeting

/-- What is asked of a column. -/
inductive Comparison
  | equal (v : Value)
  | notEqual (v : Value)
  | greater (v : Value)
  | less (v : Value)
  | contains (text : String)
  | notContains (text : String)
  | isIn (items : List Value)
  | notIn (items : List Value)

namespace Comparison

/-- The text that a column is searched for: a text itself, any other value as it is displayed. -/
def searchText : Value → String
  | .string s => s
  | v => v.display

/-- The comparison of an operator with a single value. -/
def single : Operator → Value → Comparison
  | .equals, v => equal v
  | .notEquals, v => notEqual v
  | .greaterThan, v => greater v
  | .lessThan, v => less v
  | .contains, v => contains (searchText v)
  | .notContains, v => notContains (searchText v)
  | .isIn, v => equal v
  | .notIn, v => notEqual v

/-- The comparison of an operator with an operand. -/
def build : Operator → Operand → Except FilterProblem Comparison
  | .isIn, .list items => .ok (isIn (Operand.toValues items))
  | .notIn, .list items => .ok (notIn (Operand.toValues items))
  | op, .list _ => .error (.listNotAccepted op)
  | op, operand => .ok (single op operand.toValue)

/-- The pattern that finds a text anywhere. -/
def pattern (text : String) : Value := .string ("%" ++ text ++ "%")

/-- The condition on a column. Nothing is among no values, and everything is outside of them. -/
def sql (column : String) : Comparison → Sql
  | equal .null => [.text (column ++ " IS NULL")]
  | equal v => [.text (column ++ " = "), .operand v]
  | notEqual .null => [.text (column ++ " IS NOT NULL")]
  | notEqual v => [.text (column ++ " != "), .operand v]
  | greater v => [.text (column ++ " > "), .operand v]
  | less v => [.text (column ++ " < "), .operand v]
  | contains text => [.text (column ++ " LIKE "), .operand (pattern text)]
  | notContains text => [.text (column ++ " NOT LIKE "), .operand (pattern text)]
  | isIn [] => [.text "1=0"]
  | isIn items => .text (column ++ " IN (") :: (Sql.operandList items ++ [.text ")"])
  | notIn [] => [.text "1=1"]
  | notIn items => .text (column ++ " NOT IN (") :: (Sql.operandList items ++ [.text ")"])

end Comparison

end Targeting
