import Targeting.Execution.Run
import Targeting.Query.Distinct
import Targeting.Query.Listing
import Targeting.Query.Staged
import Targeting.Word

/-!
# Answers

What the queries of an audience yield: the rows of a listing, two counts, the rows of both previews, the
values of a field. Queries are compiled for the dialect of the warehouse that answers them.

* `Value.wholeNumber?`: a count from a cell;
* `Counts`, `Preview`;
* `Audience.runListing`, `Audience.runCounts`, `Audience.runPreview`, `Audience.runDistinct`.
-/

namespace Targeting

/-- How many parents and children were found. -/
structure Counts where
  companies : Int64
  people : Int64
  deriving DecidableEq

/-- Some of the parents and of the children that were found. -/
structure Preview where
  company : List Row
  contact : List Row

/-- An integer brought between the bounds of 64 bits with sign. -/
def clamp (n : Int) : Int64 := Int64.ofInt (max leastInt64 (min greatestInt64 n))

/-- The count in a cell: an integer, a double without fraction, or a numeral. -/
def Value.wholeNumber? : Value → Option Int64
  | .int n => some n
  | .float (.finite x) => x.toInt?.map clamp
  | .string s => (Text.integer? leastInt64 greatestInt64 (Text.trimBlank s)).map Int64.ofInt
  | _ => none

/-- A failure of the query for counts. -/
def countFailure (sql reason : String) : Error := .execution Mode.count.name sql reason

/-- The count in a column of a row. -/
def Row.count (r : Row) (sql column : String) : Except Error Int64 :=
  match (r.value? column).bind Value.wholeNumber? with
  | some n => .ok n
  | none => .error (countFailure sql s!"Column '{column}' is missing or not a whole number")

/-- The counts in the first row of an answer. -/
def countsOf (sql : String) : List Row → Except Error Counts
  | [] => .error (countFailure sql "Count query returned no rows")
  | r :: _ => do
    let companies ← r.count sql "company_count"
    let people ← r.count sql "people_count"
    return { companies, people }

/-- The values of the column `value` that are there and not null. -/
def valuesOf (rows : List Row) : List Value :=
  (rows.filterMap fun r => r.value? "value").filter fun v => !v.isNull

/-- A statement run on a warehouse. -/
def Warehouse.runStatement (w : Warehouse) (ctx : Context) (mode : Mode) (s : Statement) :
    Run (List Row) :=
  w.run ctx mode s.sql s.params

namespace Audience

variable (a : Audience) (w : Warehouse) (ctx : Context) (o : CompileOptions)

/-- The rows of the listing. -/
def runListing (fs : FilterSet) (limit : Option Nat) : Run (List Row) :=
  .after (a.listingStatement fs limit (o.withDialect w.dialect)) (w.runStatement ctx .listing)

/-- The counts. -/
def runCounts (fs : FilterSet) : Run Counts :=
  .after (a.countsStatement fs (o.withDialect w.dialect)) fun s =>
    (w.runStatement ctx .count s).andThen (countsOf s.sql)

/-- The rows of both previews. -/
def runPreview (fs : FilterSet) (requested : Option Nat) : Run Preview :=
  .after (a.bothPreviews fs requested (o.withDialect w.dialect)) fun p =>
    ((w.runStatement ctx .companyPreview p.company).beside
      (w.runStatement ctx .contactPreview p.contact)).andThen fun (company, contact) =>
        .ok { company := company.take p.limit, contact := contact.take p.limit }

/-- The distinct values of a field. -/
def runDistinct (label field : String) (limit : Nat) : Run (List Value) :=
  .after (a.distinctStatement label field limit (o.withDialect w.dialect)) fun s =>
    (w.runStatement ctx .distinctValues s).andThen fun rows => .ok (valuesOf rows)

end Audience

end Targeting
