import Targeting.Audience.Basic
import Targeting.Filter.Problem

/-!
# Fields by name

A filter names a field of the object it is meant for. Saved filters may still use one of the names that
fields had in the past, which counts only where the catalog has no field of that very name.

* `currentName?`: the name that a former name stands for;
* `Placement.resolve`, `Placement.resolveFor`: the field that a name stands for, and the same for
  use in a filter;
* `Placement.columnOf`: its qualified column.
-/

namespace Targeting

/-- Names that fields had in the past, each with the name they have now. -/
def formerNames : List (String × String) :=
  [("companyName", "company_name"), ("companyId", "company_id"), ("companyDomain", "domain"),
    ("companySize", "employee_count"), ("employeeCount", "employee_count"),
    ("annualRevenue", "annual_revenue"), ("industryName", "industry"), ("countryName", "country"),
    ("hqCity", "city"), ("jobTitle", "job_title"), ("firstName", "first_name"),
    ("lastName", "last_name"), ("emailAddress", "email"), ("seniorityLevel", "seniority"),
    ("departmentName", "department")]

/-- The name that a former name stands for. -/
def currentName? (name : String) : Option String := formerNames.lookup name

/-- The field of a catalog with a name, or else with the name that it stands for. -/
def CatalogObject.resolve? (o : CatalogObject) (name : String) : Option Field :=
  (o.field? name).orElse fun _ => (currentName? name).bind o.field?

namespace Placement

/-- The field that a name stands for. -/
def resolve (p : Placement) (name : String) : Except Error Field :=
  match p.object.resolve? name with
  | some f => .ok f
  | none => .error (.configuration (.unknownField name p.object.name p.label))

/-- The field that a name stands for, if filters may ask this of it. -/
def resolveFor (p : Placement) (op : Operator) (name : String) : Except Error Field := do
  let f ← p.resolve name
  if !f.filterable then throw (FilterProblem.notFilterable f.name).error
  if !f.allows op then throw (FilterProblem.operatorNotAllowed op f.name).error
  return f

/-- The qualified column of a field. -/
def column (p : Placement) (f : Field) : String := p.qualify f.columnName

/-- The qualified column of the field that a name stands for. -/
def columnOf (p : Placement) (name : String) : Except Error String :=
  (p.resolve name).map p.column

end Placement

end Targeting
