import Targeting.Text.Blank
import Targeting.Text.Caseless

/-!
# SQL dialects

The warehouses understood. A dialect decides only how a place for an operand is written: numbered
(`$1`, `$2`, …) or as a question mark.

* `Dialect`, `Dialect.ofName?`;
* `Dialect.placeholder`.
-/

namespace Targeting

/-- A SQL dialect. -/
inductive Dialect
  | postgres
  | redshift
  | snowflake
  | sqlite
  deriving DecidableEq

namespace Dialect

/-- The name in settings. -/
def name : Dialect → String
  | postgres => "postgres"
  | redshift => "redshift"
  | snowflake => "snowflake"
  | sqlite => "sqlite"

/-- The name in messages about connections. -/
def title : Dialect → String
  | postgres => "Postgres"
  | redshift => "Redshift"
  | snowflake => "Snowflake"
  | sqlite => "Sqlite"

/-- The dialects by their names in settings. -/
def byName : List (String × Dialect) :=
  [postgres, redshift, snowflake, sqlite].map fun d => (d.name, d)

/-- The dialect that an engine name stands for, whatever its case and the white space around it. -/
def ofName? (engine : String) : Option Dialect :=
  (byName ++ [("postgresql", postgres), ("sqlite3", sqlite)]).lookup
    (Text.lowerAscii (Text.trimBlank engine))

/-- Places for operands are numbered. -/
def numbered : Dialect → Bool
  | postgres | redshift => true
  | snowflake | sqlite => false

/-- The place for the operand with a number, counted from one. -/
def placeholder (d : Dialect) (i : Nat) : String := if d.numbered then "$" ++ toString i else "?"

end Dialect

end Targeting
