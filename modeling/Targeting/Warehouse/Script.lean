import Targeting.Warehouse.Basic

/-!
# Scripted warehouses

A warehouse that answers by rules: the first rule whose fragment occurs in the query decides, and
without one there are no rows.

* `Rule`, `Warehouse.scripted`.
-/

namespace Targeting

/-- An answer for the queries in which a fragment occurs. -/
structure Rule where
  fragment : String
  reply : Reply

/-- A text occurs in another one. -/
def occursIn (part : List Char) : List Char → Bool
  | [] => part.isEmpty
  | c :: cs => part.isPrefixOf (c :: cs) || occursIn part cs

/-- The answer of the first rule that a query fits. -/
def Rule.answer (rules : List Rule) (sent : Sent) : Reply :=
  match rules.find? fun r => occursIn r.fragment.toList sent.sql.toList with
  | some r => r.reply
  | none => { delay := ⟨0⟩, outcome := .ok [] }

/-- The warehouse that answers by rules. -/
def Warehouse.scripted (dialect : Dialect) (rules : List Rule) : Warehouse where
  dialect := dialect
  answer := fun _ sent => Rule.answer rules sent

end Targeting
