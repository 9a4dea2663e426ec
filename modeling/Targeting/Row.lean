import Targeting.Error
import Targeting.Text.Caseless
import Targeting.Value.Basic

/-!
# Rows

A row of an answer: columns with values, in order. A column is found by name without regard to ASCII
case, and the first of several counts; as a JSON object a row keeps the last of repeated columns, in
its own text it keeps all.

* `Row`, `Row.value?`, `Row.get`: a row and its values by name;
* `Row.toJson`, `Row.text`: a row as an object with sorted keys, and as its own text;
* `Value.toInt`, `Value.toFloat`, …: values of a wanted kind.
-/

namespace Targeting

/-- A row: its columns in order, each with its value. -/
structure Row where
  cells : List (String × Value)

namespace Row

/-- The row with the given columns and values, if there are as many of both. -/
def ofColumns? (columns : List String) (values : List Value) : Option Row :=
  if columns.length = values.length then some ⟨columns.zip values⟩ else none

/-- The columns. -/
def columns (r : Row) : List String := r.cells.map Prod.fst

/-- The value of the first column with a name, whatever its ASCII case. -/
def value? (r : Row) (column : String) : Option Value :=
  (r.cells.find? fun c => Text.sameLetters c.1 column).map Prod.snd

/-- The value of a column, read by its kind. -/
def get {α : Type} (r : Row) (read : Value → Except Error α) (column : String) : Except Error α :=
  match r.value? column with
  | some v => read v
  | none => .error (.warehouse s!"Column '{column}' not found in row")

/-- A row as an object; of repeated columns the last counts. -/
def toJson (r : Row) : Json := Json.sorted (r.cells.map fun (c, v) => (c, v.toJson))

/-- The text of a row: an object with all its columns in order. -/
def text (r : Row) : String := (Json.object (r.cells.map fun (c, v) => (c, v.toJson))).compact

end Row

namespace Value

/-- The error for a value that is not of the wanted kind. -/
def unexpected (kind : String) (v : Value) : Error :=
  .warehouse ("Expected " ++ kind ++ ", got " ++ v.inspect)

/-- An integer. -/
def toInt : Value → Except Error Int64
  | int n => .ok n
  | v => .error (v.unexpected "Int")

/-- A double; an integer is taken as the nearest one. -/
def toFloat : Value → Except Error Binary64
  | float x => .ok x
  | int n => .ok (Binary64.ofInt n.toInt)
  | v => .error (v.unexpected "Float")

/-- A text. -/
def toText : Value → Except Error String
  | string s => .ok s
  | v => .error (v.unexpected "String")

/-- Nothing for null, otherwise a value of the wanted kind. -/
def toOptional {α : Type} (read : Value → Except Error α) : Value → Except Error (Option α)
  | null => .ok none
  | v => (read v).map some

end Value

end Targeting
