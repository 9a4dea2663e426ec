import Targeting.Audience.Resolution
import Targeting.Audience.Validation
import Targeting.Query.Basic

/-!
# Distinct values

The values that occur in the column of a field, in order and without null. Only fields that list their
values may be asked.

* `Audience.distinct`, `Audience.distinctStatement`: the query, and the query as it is written.
-/

namespace Targeting

/-- The object under an alias that must exist. -/
def Audience.requireObject (a : Audience) (label : String) : Except Error Placement :=
  match a.object? label with
  | some p => .ok p
  | none => .error (.configuration (.unknownObject label))

/-- The distinct values of a field of an object. -/
def Audience.distinct (a : Audience) (label field : String) (limit : Nat) :
    Except Error Query := do
  a.validate
  let p ← a.requireObject label
  let f ← p.resolve field
  if !f.listsDistinct then throw (FilterProblem.noDistinctValues f.name).error
  let column := p.column f
  return {
    sql := [.text ("SELECT DISTINCT " ++ column ++ " AS value FROM " ++ p.object.table ++ " " ++
      p.label ++ " WHERE " ++ column ++ " IS NOT NULL ORDER BY value LIMIT " ++ toString limit)]
    warnings := [] }

/-- The distinct values of a field as options ask for them. There are no operands in this query. -/
def Audience.distinctStatement (a : Audience) (label field : String) (limit : Nat)
    (o : CompileOptions) : Except Error Statement :=
  (a.distinct label field limit).map (Query.write o)

end Targeting
