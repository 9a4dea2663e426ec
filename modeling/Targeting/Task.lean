import Targeting.Execution.Answer

/-!
# Tasks

One of the four things that can be asked of an audience, and its answer as JSON: the compiled queries, or
what they yield on a warehouse.

* `Task`, `Request`;
* `Request.compile`, `Request.run`.
-/

namespace Targeting

/-- What is asked of an audience. -/
inductive Task
  | listing
  | counts
  | preview
  | distinct (target : Option (String × String))
  deriving DecidableEq

/-- A task for an audience with filters. -/
structure Request where
  audience : Audience
  filters : FilterSet := {}
  task : Task := .listing
  limit : Option Nat := none

/-- The number of distinct values that are shown unless a limit is given. -/
def distinctLimit : Nat := 100

/-- The object and the field whose values are asked for. -/
def requireTarget : Option (String × String) → Except Error (String × String)
  | some target => .ok target
  | none => .error (.configuration .noTarget)

/-- Counts as JSON. -/
def Counts.toJson (c : Counts) : Json :=
  .object [("companyCount", .ofInt64 c.companies), ("peopleCount", .ofInt64 c.people)]

/-- A preview as JSON. -/
def Preview.toJson (p : Preview) : Json :=
  .object [("companyPreview", .array (p.company.map Row.toJson)),
    ("contactPreview", .array (p.contact.map Row.toJson))]

namespace Request

variable (r : Request) (o : CompileOptions)

/-- The compiled queries as JSON. -/
def compile : Except Error Json :=
  match r.task with
  | .listing => (r.audience.listingStatement r.filters r.limit o).map Statement.toJson
  | .counts => (r.audience.countsStatement r.filters o).map Statement.toJson
  | .preview => (r.audience.bothPreviews r.filters r.limit o).map fun p =>
    .object [("company", p.company.toJson), ("contact", p.contact.toJson),
      ("limit", .ofUInt64 (UInt64.ofNat p.limit))]
  | .distinct target => do
    let (label, field) ← requireTarget target
    let s ← r.audience.distinctStatement label field (r.limit.getD distinctLimit) o
    return s.toJson

/-- What the queries yield, as JSON. -/
def run (w : Warehouse) (ctx : Context) : Run Json :=
  match r.task with
  | .listing => (r.audience.runListing w ctx o r.filters r.limit).andThen fun rows =>
    .ok (.array (rows.map Row.toJson))
  | .counts => (r.audience.runCounts w ctx o r.filters).andThen fun c => .ok c.toJson
  | .preview => (r.audience.runPreview w ctx o r.filters r.limit).andThen fun p => .ok p.toJson
  | .distinct target => .after (requireTarget target) fun (label, field) =>
    (r.audience.runDistinct w ctx o label field (r.limit.getD distinctLimit)).andThen fun vs =>
      .ok (.array (vs.map Value.toJson))

end Request

end Targeting
