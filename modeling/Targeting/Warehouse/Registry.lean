import Targeting.Keyed
import Targeting.Warehouse.Basic

/-!
# Registries of connections

A registry is a warehouse that passes each call on to the warehouse of its connection. All of them speak
one dialect, since a query is compiled before it is passed on.

* `Registry`, `Registry.register`, `Registry.unregister`, `Registry.get`, `Registry.ids`;
* `Registry.passOn`, `Registry.toWarehouse`: a call passed on, and the registry as a warehouse.
-/

namespace Targeting

/-- Warehouses by connection, in the order of the connections. -/
structure Registry where
  dialect : Dialect
  connections : List (String × Warehouse) := []

namespace Registry

/-- The warehouse of a connection. -/
def find? (r : Registry) (id : String) : Option Warehouse := r.connections.lookup id

/-- The connection has a warehouse. -/
def contains (r : Registry) (id : String) : Bool := (r.find? id).isSome

/-- The connections that have a warehouse, in order. -/
def ids (r : Registry) : List String := r.connections.map Prod.fst

/-- The warehouse that a connection must have. -/
def get (r : Registry) (id : String) : Except Error Warehouse :=
  match r.find? id with
  | some w => .ok w
  | none => .error (.configuration (.unknownConnection id))

/-- Gives a connection a warehouse, in place of the one that it has. -/
def register (r : Registry) (id : String) (w : Warehouse) : Except Error Registry :=
  if w.dialect = r.dialect then .ok { r with connections := Keyed.insert id w r.connections }
  else .error (.configuration (.dialectMismatch id w.dialect r.dialect))

/-- Takes the warehouse of a connection away. -/
def unregister (r : Registry) (id : String) : Registry :=
  { r with connections := r.connections.filter fun c => c.1 ≠ id }

/-- A call passed on to the warehouse of its connection, whatever it takes to ask a warehouse. A call of a
connection without warehouse fails at once. -/
def passOn {m : Type → Type} [Monad m] (r : Registry) (ask : Warehouse → Context → Sent → m Reply)
    (ctx : Context) (sent : Sent) : m Reply :=
  match r.get ctx.connection with
  | .ok w => ask w ctx sent
  | .error e => pure { delay := ⟨0⟩, outcome := .error e }

/-- The registry as a warehouse. -/
def toWarehouse (r : Registry) : Warehouse where
  dialect := r.dialect
  answer := r.passOn (m := Id) Warehouse.answer

end Registry

end Targeting
