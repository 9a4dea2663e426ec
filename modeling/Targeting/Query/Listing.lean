import Targeting.Audience.Parts
import Targeting.Audience.Validation
import Targeting.Filter.Compilation
import Targeting.Query.Basic
import Targeting.Query.Joins
import Targeting.Writer

/-!
# Listings

A listing shows every displayable field of the joined objects, for the rows that meet all filters. A
list of filters needs an object to be meant for only if there are filters in it, and that object has
to be joined.

* `Placement.listingItems`: the columns of an object;
* `Basis`, `Audience.basis`: what a listing is built from;
* `Audience.listing`, `Audience.listingStatement`: the query, and the query as it is written;
* `Audience.listingText`: its text with all operands written into it.
-/

namespace Targeting

/-- The columns of an object in a listing, each named after the alias and the field. -/
def Placement.listingItems (p : Placement) : List String :=
  p.object.displayable.map fun f => p.column f ++ " AS " ++ p.label ++ "_" ++ sanitize f.name

/-- The object that the filters for a role are meant for. -/
def JoinPlan.target (plan : JoinPlan) (o : CompilerSettings) (a : Audience) (role : Role) :
    Except Error Placement :=
  match a.findRole o role with
  | none => .error (.configuration (.noFilterTarget role))
  | some p =>
    if plan.includes p.label then .ok p
    else .error (.configuration (.targetNotJoined role p.object.name p.label))

/-- The condition of the filters for a role, if there are any. -/
def JoinPlan.condition (plan : JoinPlan) (o : CompilerSettings) (a : Audience) (role : Role)
    (fs : List Filter) : Except Error (List Condition × List Warning) :=
  if fs.isEmpty then .ok ([], [])
  else do
    let p ← plan.target o a role
    let (c, warnings) ← p.condition o role.listName fs
    return ([c], warnings)

/-- What a listing consists of: where it selects from, and the condition of all filters. -/
structure Basis where
  plan : JoinPlan
  condition : Condition
  warnings : List Warning

/-- What the listing of an audience with filters is built from. -/
def Audience.basis (a : Audience) (o : CompilerSettings) (fs : FilterSet) :
    Except Error Basis := do
  a.validate
  let plan ← JoinPlan.build a o.joinStrategy
  let (company, more) ← plan.condition o a .parent fs.company
  let (contact, rest) ← plan.condition o a .child fs.contact
  return {
    plan
    condition := .conjunction (company ++ contact)
    warnings := plan.warnings ++ more ++ rest }

/-- What a listing selects, and from where. -/
def JoinPlan.listingHead (plan : JoinPlan) : String :=
  "SELECT DISTINCT " ++ selectList "*" (plan.objects.flatMap Placement.listingItems) ++ " " ++
    plan.clause

/-- The end of a query that shows so many rows at most. -/
def limitClause : Option Nat → Sql
  | some n => [.text (" LIMIT " ++ toString n)]
  | none => []

namespace Basis

variable (s : Basis) (limit : Option Nat)

/-- The query that shows what is selected. -/
def query : Query where
  sql := .text s.plan.listingHead :: (s.condition.whereClause ++ limitClause limit)
  warnings := s.warnings

/-- The query as it is written. -/
def statement (r : Writer) : Statement :=
  let filtered := r.whereClause s.condition (Sql.Written.nothing.push s.plan.listingHead)
  let limited :=
    match limit with
    | some n => filtered.push (" LIMIT " ++ toString n)
    | none => filtered
  limited.statement s.warnings

end Basis

namespace Audience

variable (a : Audience)

/-- The listing of an audience. -/
def listing (o : CompilerSettings) (fs : FilterSet) (limit : Option Nat) : Except Error Query :=
  (a.basis o fs).map fun s => s.query limit

/-- The listing as options ask for it. -/
def listingStatement (fs : FilterSet) (limit : Option Nat) (o : CompileOptions) :
    Except Error Statement :=
  (a.basis o.compiler fs).map fun s => s.statement limit o.writer

/-- The text of the listing with all operands written into it, whatever the value mode. -/
def listingText (fs : FilterSet) (limit : Option Nat) (o : CompileOptions) : Except Error String :=
  (a.listingStatement fs limit (o.withValueMode .inline)).map Statement.sql

end Audience

end Targeting
