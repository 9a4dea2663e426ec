import Targeting.Query.Warning
import Targeting.Sql

/-!
# Queries

A query is SQL with the warnings that came up while it was compiled. A statement is a query as it is
sent to a warehouse.

* `Query`, `Query.write`; `Statement`, `Sql.Written.statement`, `Statement.toJson`;
* `selectList`: what a query selects.
-/

namespace Targeting

/-- A compiled query. -/
structure Query where
  sql : Sql
  warnings : List Warning

/-- A query as it is sent. -/
structure Statement where
  sql : String
  params : List Value
  warnings : List String

/-- The statement of what has been written, with warnings. -/
def Sql.Written.statement (w : Sql.Written) (warnings : List Warning) : Statement :=
  { sql := w.text, params := w.params, warnings := warnings.map Warning.text }

/-- A query as options ask for it. -/
def Query.write (o : CompileOptions) (q : Query) : Statement :=
  (q.sql.write o.dialect o.compiler.valueMode).statement q.warnings

@[simp]
theorem Query.warnings_write (q : Query) (o : CompileOptions) :
    (q.write o).warnings = q.warnings.map Warning.text := rfl

/-- A statement as JSON. -/
def Statement.toJson (s : Statement) : Json :=
  .object [("params", .array (s.params.map Value.toJson)), ("sql", .string s.sql),
    ("warnings", .ofStrings s.warnings)]

/-- Items with commas in between; without items, everything that the wildcard stands for. -/
def selectList (wildcard : String) (items : List String) : String :=
  if items.isEmpty then wildcard else String.intercalate ", " items

end Targeting
