import Targeting.Error
import Targeting.Filter.Basic

/-!
# Problems of filters

Why a filter that could be read cannot be used after all.

* `FilterProblem`, `FilterProblem.violation`: the reasons and how they are reported.
-/

namespace Targeting

/-- Why a filter, or a field asked for its values, cannot be used. -/
inductive FilterProblem
  | unsupportedOperator (raw : String)
  | notFilterable (field : String)
  | operatorNotAllowed (op : Operator) (field : String)
  | listNotAccepted (op : Operator)
  | noDistinctValues (field : String)
  deriving DecidableEq

namespace FilterProblem

/-- A problem as a violation. -/
def violation : FilterProblem → Violation
  | unsupportedOperator raw =>
    (Violation.simple s!"Unsupported operator '{raw}'" "unsupported_operator").withParam
      "operator" raw
  | notFilterable field =>
    (Violation.simple s!"Field '{field}' cannot be used in filters" "not_filterable").withParam
      "field" field
  | operatorNotAllowed op field =>
    ((Violation.simple s!"Operator '{op.name}' is not allowed for field '{field}'"
      "operator_not_allowed").withParam "field" field).withParam "operator" op.name
  | listNotAccepted op =>
    (Violation.simple s!"Operator '{op.name}' does not accept a list value"
      "invalid_value").withParam "operator" op.name
  | noDistinctValues field =>
    (Violation.simple s!"Field '{field}' does not list distinct values"
      "no_distinct_values").withParam "field" field

/-- A problem as an error. -/
def error (p : FilterProblem) : Error := .validation p.violation

end FilterProblem

/-- A violation is filed under a path; every other error stays as it is. -/
def Error.atPath (path : String) : Error → Error
  | .validation v => .validation (v.atPath path)
  | e => e

end Targeting
