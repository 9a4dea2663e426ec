import Targeting.Dialect

/-!
# Settings

What can be configured: the warehouse and its connection, how queries are compiled, and how long the
counts of a cohort are good for.

* `ValueMode`, `Grouping`, `JoinStrategy`: the choices of the compiler;
* `Settings` and its sections, each with its defaults;
* `CompileOptions`: what compiling needs of them.
-/

namespace Targeting

/-- How operands reach the warehouse: beside the query, or written into it. -/
inductive ValueMode
  | bound
  | inline
  deriving DecidableEq

/-- How a flat list of conditions becomes a boolean expression. -/
inductive Grouping
  | adjacency
  | precedence
  deriving DecidableEq

/-- How the objects of a listing are joined. -/
inductive JoinStrategy
  | flat
  | graph
  deriving DecidableEq

namespace ValueMode

/-- The name in settings. -/
def name : ValueMode → String
  | bound => "bound"
  | inline => "inline"

/-- The modes by name. -/
def byName : List (String × ValueMode) := [bound, inline].map fun m => (m.name, m)

end ValueMode

namespace Grouping

/-- The name in settings. -/
def name : Grouping → String
  | adjacency => "adjacency"
  | precedence => "precedence"

/-- The groupings by name. -/
def byName : List (String × Grouping) := [adjacency, precedence].map fun g => (g.name, g)

end Grouping

namespace JoinStrategy

/-- The name in settings. -/
def name : JoinStrategy → String
  | flat => "flat"
  | graph => "graph"

/-- The strategies by name. -/
def byName : List (String × JoinStrategy) := [flat, graph].map fun s => (s.name, s)

end JoinStrategy

/-- The connection to the warehouse. A timeout of zero is none. -/
structure WarehouseSettings where
  dialect : Dialect := .postgres
  connection : String := "default"
  timeoutSeconds : UInt64 := 300
  deriving DecidableEq

/-- How queries are compiled. -/
structure CompilerSettings where
  valueMode : ValueMode := .bound
  grouping : Grouping := .adjacency
  joinStrategy : JoinStrategy := .flat
  previewLimit : UInt64 := 25
  defaultJoinKey : String := "company_id"
  parentMarker : String := "company_name"
  childMarker : String := "job_title"
  strictOperators : Bool := false
  deriving DecidableEq

/-- How cohorts are kept. -/
structure CohortSettings where
  countSeconds : UInt64 := 3600
  deriving DecidableEq

/-- All settings. -/
structure Settings where
  debug : Bool := false
  logLevel : String := "info"
  warehouse : WarehouseSettings := {}
  compiler : CompilerSettings := {}
  cohort : CohortSettings := {}
  deriving DecidableEq

/-- The deadline of a query in seconds, if there is one. -/
def WarehouseSettings.timeout? (w : WarehouseSettings) : Option Nat :=
  if w.timeoutSeconds = 0 then none else some w.timeoutSeconds.toNat

/-- What compiling needs besides an audience and its filters. -/
structure CompileOptions where
  dialect : Dialect := .postgres
  compiler : CompilerSettings := {}
  deriving DecidableEq

/-- The options that settings ask for. -/
def Settings.compileOptions (s : Settings) : CompileOptions :=
  { dialect := s.warehouse.dialect, compiler := s.compiler }

namespace CompileOptions

/-- The same options for another dialect. -/
def withDialect (d : Dialect) (o : CompileOptions) : CompileOptions := { o with dialect := d }

/-- The same options with another value mode. -/
def withValueMode (m : ValueMode) (o : CompileOptions) : CompileOptions :=
  { o with compiler := { o.compiler with valueMode := m } }

/-- The same options with another grouping. -/
def withGrouping (g : Grouping) (o : CompileOptions) : CompileOptions :=
  { o with compiler := { o.compiler with grouping := g } }

/-- The same options with another join strategy. -/
def withJoinStrategy (s : JoinStrategy) (o : CompileOptions) : CompileOptions :=
  { o with compiler := { o.compiler with joinStrategy := s } }

/-- The same options with unknown operators refused. -/
def strict (o : CompileOptions) : CompileOptions :=
  { o with compiler := { o.compiler with strictOperators := true } }

end CompileOptions

end Targeting
