import Targeting.Condition.Basic

/-!
# Writers

SQL is written from left to right for a dialect, in one of two ways. What has been written is text and
the parameters that go beside it. An operand is written as a literal, or it becomes the next parameter
and its place is written, which is numbered by the parameters so far.

* `Sql.Written.push`, `Sql.Written.fill`: what is written next;
* `Writer`, `CompileOptions.writer`: a dialect with a value mode;
* `Writer.operand`, `Writer.likePattern`, `Writer.operandList`: an operand, a pattern and a list;
* `Writer.comparison`, `Writer.condition`, `Writer.whereClause`: conditions.
-/

namespace Targeting

namespace Sql.Written

/-- Nothing has been written yet. -/
def nothing : Written := ⟨"", []⟩

/-- Text is written next. -/
def push (w : Written) (s : String) : Written := { w with text := w.text ++ s }

/-- Text is written next, around operands that may add to the parameters. -/
def fill (w : Written) (before : String) (operands : List Value → String × List Value)
    (after : String) : Written :=
  let (marks, params) := operands w.params
  ⟨w.text ++ before ++ marks ++ after, params⟩

end Sql.Written

/-- How SQL is written. -/
structure Writer where
  dialect : Dialect
  mode : ValueMode

/-- The writer that options ask for. -/
def CompileOptions.writer (o : CompileOptions) : Writer := ⟨o.dialect, o.compiler.valueMode⟩

namespace Writer

variable (r : Writer)

/-! ## Operands -/

/-- An operand: its literal, or the place of one more parameter. -/
def operand (v : Value) (params : List Value) : String × List Value :=
  match r.mode with
  | .inline => (v.literal, params)
  | .bound => (r.dialect.placeholder (params.length + 1), params ++ [v])

/-- The pattern that finds a text anywhere: a text literal, or one more parameter. -/
def likePattern (text : String) (params : List Value) : String × List Value :=
  let pattern := "%" ++ text ++ "%"
  match r.mode with
  | .inline => (quote pattern, params)
  | .bound => r.operand (.string pattern) params

/-- Operands one after the other. -/
def operands : List Value → List Value → List String × List Value
  | [], params => ([], params)
  | v :: rest, params =>
    let (mark, params) := r.operand v params
    let (marks, params) := operands rest params
    (mark :: marks, params)

/-- Operands with commas in between: the literal of their list, or as many more parameters. -/
def operandList (items params : List Value) : String × List Value :=
  match r.mode with
  | .inline => (Value.listLiteral items, params)
  | .bound =>
    let (marks, params) := r.operands items params
    (String.intercalate ", " marks, params)

/-! ## Conditions -/

/-- A comparison with a column. Nothing is among no values, and everything is outside of them. -/
def comparison (column : String) (c : Comparison) (w : Sql.Written) : Sql.Written :=
  match c with
  | .equal .null => w.push (column ++ " IS NULL")
  | .notEqual .null => w.push (column ++ " IS NOT NULL")
  | .equal v => w.fill (column ++ " = ") (r.operand v) ""
  | .notEqual v => w.fill (column ++ " != ") (r.operand v) ""
  | .greater v => w.fill (column ++ " > ") (r.operand v) ""
  | .less v => w.fill (column ++ " < ") (r.operand v) ""
  | .contains text => w.fill (column ++ " LIKE ") (r.likePattern text) ""
  | .notContains text => w.fill (column ++ " NOT LIKE ") (r.likePattern text) ""
  | .isIn [] => w.push "1=0"
  | .notIn [] => w.push "1=1"
  | .isIn items => w.fill (column ++ " IN (") (r.operandList items) ")"
  | .notIn items => w.fill (column ++ " NOT IN (") (r.operandList items) ")"

mutual

/-- A condition, which is nested or stands alone. -/
def condition (nested : Bool) : Condition → Sql.Written → Sql.Written
  | .compare column c, w => r.comparison column c w
  | .all cs, w => group nested " AND " "1=1" cs w
  | .any cs, w => group nested " OR " "1=0" cs w

/-- The members of a group with its keyword in between, or what stands for no members. Several members
are between parentheses where they are nested. -/
def group (nested : Bool) (keyword identity : String) :
    List Condition → Sql.Written → Sql.Written
  | [], w => w.push identity
  | [c], w => condition true c w
  | c :: d :: rest, w =>
    let opened := if nested then w.push "(" else w
    let inside := members keyword (d :: rest) (condition true c opened)
    if nested then inside.push ")" else inside

/-- Further members of a group, each after the keyword of the group. -/
def members (keyword : String) : List Condition → Sql.Written → Sql.Written
  | [], w => w
  | c :: rest, w => members keyword rest (condition true c (w.push keyword))

end

/-- The clause for a condition; there is none for an empty group. -/
def whereClause (c : Condition) (w : Sql.Written) : Sql.Written :=
  if c.isEmpty then w else r.condition false c (w.push " WHERE ")

end Writer

end Targeting
