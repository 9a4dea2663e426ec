import Targeting.Settings.Basic
import Targeting.Value.Literal

/-!
# SQL with operands

A piece of SQL is text with operands in between. Only when it is written down is it decided whether
an operand goes beside the text, with a placeholder in its place, or into it as a literal; so one
piece of SQL is the same query for all dialects and in both ways.

* `Sql`, `Sql.operands`: text with operands, and the operands in order;
* `Sql.bound`, `Sql.inline`: the text with placeholders, and with literals;
* `Sql.write`: the text and the parameters that options ask for.
-/

namespace Targeting

/-- A part of SQL: text, or an operand. -/
inductive Sql.Piece
  | text (s : String)
  | operand (v : Value)

/-- SQL with operands. -/
abbrev Sql : Type := List Sql.Piece

/-- SQL as it is sent, with the operands that go beside it. -/
structure Sql.Written where
  text : String
  params : List Value

namespace Sql

/-- The operands in order. -/
def operands : Sql → List Value
  | [] => []
  | .text _ :: rest => operands rest
  | .operand v :: rest => v :: operands rest

/-- The text with placeholders, the first of them with number `i`. -/
def bound (d : Dialect) (i : Nat) : Sql → String
  | [] => ""
  | .text s :: rest => s ++ bound d i rest
  | .operand _ :: rest => d.placeholder i ++ bound d (i + 1) rest

/-- The text with literals. -/
def inline : Sql → String
  | [] => ""
  | .text s :: rest => s ++ inline rest
  | .operand v :: rest => v.literal ++ inline rest

/-- Operands with commas in between. -/
def operandList : List Value → Sql
  | [] => []
  | [v] => [.operand v]
  | v :: w :: rest => .operand v :: .text ", " :: operandList (w :: rest)

/-- SQL as it is sent. -/
def write (d : Dialect) (mode : ValueMode) (q : Sql) : Written :=
  match mode with
  | .bound => ⟨bound d 1 q, q.operands⟩
  | .inline => ⟨inline q, []⟩

end Sql

end Targeting
