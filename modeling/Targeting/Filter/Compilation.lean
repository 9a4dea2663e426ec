import Targeting.Audience.Resolution
import Targeting.Condition.Grouping
import Targeting.Query.Warning

/-!
# Filters as conditions

Every filter of a list becomes a comparison of a column of the object that the list is meant for; then
the comparisons are grouped. The name in a filter decides which field it asks for and whether it may;
the column is then looked up by the name of that field. The first filter that cannot be used decides
the error. An operator that is not known is refused if operators are strict, and otherwise taken for
`equals` with a warning.

* `Filter.operatorAt`: the operator of a filter;
* `Placement.compileFilter`, `Placement.compileFilters`: the condition of one filter, and of a list;
* `Placement.condition`: the condition of a list, grouped.
-/

namespace Targeting

/-- The operator of the filter at a path. -/
def Filter.operatorAt (strict : Bool) (path : String) (f : Filter) :
    Except Error (Operator × List Warning) :=
  match f.operator? with
  | some op => .ok (op, [])
  | none =>
    if strict then .error ((FilterProblem.unsupportedOperator f.operator).error.atPath path)
    else .ok (.equals, [.unsupportedOperator path f.operator])

namespace Placement

/-- The condition of the filter at a path. -/
def compileFilter (p : Placement) (strict : Bool) (path : String) (f : Filter) :
    Except Error (Condition × List Warning) := do
  let (op, warnings) ← f.operatorAt strict path
  let field ← (p.resolveFor op f.field).mapError (Error.atPath path)
  let c ← (Comparison.build op f.operand).mapError fun problem => problem.error.atPath path
  let column ← p.columnOf field.name
  return (.compare column c, warnings)

/-- The conditions of the filters of a list from position `i` on, each with its connector. -/
def compileFilters (p : Placement) (strict : Bool) (list : String) (i : Nat) :
    List Filter → Except Error (List Tied × List Warning)
  | [] => .ok ([], [])
  | f :: rest => do
    let (c, warnings) ← p.compileFilter strict (itemPath list i) f
    let (cs, more) ← p.compileFilters strict list (i + 1) rest
    return ((c, f.effectiveConnector) :: cs, warnings ++ more)

/-- The condition of the filters of a list. -/
def condition (p : Placement) (o : CompilerSettings) (list : String) (fs : List Filter) :
    Except Error (Condition × List Warning) := do
  let (cs, warnings) ← p.compileFilters o.strictOperators list 0 fs
  return (.grouped o.grouping cs, warnings)

end Placement

end Targeting
