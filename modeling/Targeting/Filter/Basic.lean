import Targeting.Role
import Targeting.Text.Blank
import Targeting.Text.Caseless
import Targeting.Value.Basic

/-!
# Filters

A filter asks something of one field: it names the field and an operator, and gives an operand. A
connector ties it to the next filter of its list. The operator is kept as it was written, since an
unknown one may be compiled as `equals`.

* `Operator`, `Operator.ofName?`; `Connector`; `Operand`, `Operand.toValue`;
* `Filter`, `FilterSet`: one filter, and the two lists of a cohort.
-/

namespace Targeting

/-- What a filter asks of a field. -/
inductive Operator
  | equals
  | notEquals
  | greaterThan
  | lessThan
  | contains
  | notContains
  | isIn
  | notIn
  deriving DecidableEq

namespace Operator

/-- The name of an operator. -/
def name : Operator → String
  | equals => "equals"
  | notEquals => "not_equals"
  | greaterThan => "greater_than"
  | lessThan => "less_than"
  | contains => "contains"
  | notContains => "not_contains"
  | isIn => "in"
  | notIn => "not_in"

/-- All operators. -/
def all : List Operator :=
  [equals, notEquals, greaterThan, lessThan, contains, notContains, isIn, notIn]

/-- The operator with a name, whatever its ASCII case and the white space around it. -/
def ofName? (raw : String) : Option Operator :=
  all.find? fun op => Text.sameLetters op.name (Text.trimBlank raw)

end Operator

/-- How a filter is tied to the next one. -/
inductive Connector
  | and
  | or
  deriving DecidableEq

/-- The keyword of a connector. -/
def Connector.keyword : Connector → String
  | .and => "AND"
  | .or => "OR"

/-- The connectors by the names under which they are read. -/
def Connector.byName : List (String × Connector) :=
  [("AND", .and), ("and", .and), ("OR", .or), ("or", .or)]

/-- An operand: a text, a number, or a list of operands. -/
inductive Operand
  | string (s : String)
  | number (n : Json.Number)
  | list (items : List Operand)

namespace Operand

/-- The operand is a list. -/
def isList : Operand → Bool
  | list _ => true
  | _ => false

/-- A number as a value: an integer of 64 bits with sign if it is one, otherwise a double. -/
def numberValue : Json.Number → Value
  | .integer n =>
    if FitsInt64 n.val then .int (Int64.ofInt n.val) else .float (Binary64.ofInt n.val)
  | .float x => .float (.finite x)

mutual

/-- An operand as a value. -/
def toValue : Operand → Value
  | string s => .string s
  | number n => numberValue n
  | list items => .list (toValues items)

/-- Operands as values. -/
def toValues : List Operand → List Value
  | [] => []
  | v :: rest => v.toValue :: toValues rest

end

end Operand

/-- What is asked of one field, and how the next filter is tied on. -/
structure Filter where
  field : String
  operator : String
  operand : Operand
  connector : Option Connector := none

namespace Filter

/-- The operator, if it is known. -/
def operator? (f : Filter) : Option Operator := Operator.ofName? f.operator

/-- The connector; without one a filter is tied by `AND`. -/
def effectiveConnector (f : Filter) : Connector := f.connector.getD .and

end Filter

/-- The filters of a cohort: those of the parents and those of the children. -/
structure FilterSet where
  company : List Filter := []
  contact : List Filter := []

/-- There are no filters at all. -/
def FilterSet.isEmpty (s : FilterSet) : Bool := s.company.isEmpty && s.contact.isEmpty

/-- The path of an item of a list. -/
def itemPath (list : String) (i : Nat) : String := list ++ "[" ++ toString i ++ "]"

/-- The filters for the object with a role. -/
def FilterSet.ofRole (s : FilterSet) : Role → List Filter
  | .parent => s.company
  | .child => s.contact

end Targeting
