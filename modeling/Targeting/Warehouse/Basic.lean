import Targeting.Dialect
import Targeting.Row
import Targeting.Settings.Basic

/-!
# Warehouses

A warehouse answers a statement after some time. Every call has a context: the connection it is for,
a deadline, and whether and when its caller cancels it.

* `Context`, `Context.ofSettings`;
* `Sent`, `Reply`, `Warehouse`: what a warehouse gets, what it gives back, and the warehouse.
-/

namespace Targeting

/-- The circumstances of a call. -/
structure Context where
  connection : String
  tenant : Option String := none
  deadline : Option Duration := none
  /-- The caller has cancelled before the call. -/
  cancelled : Bool := false
  /-- The time after the start of the call at which the caller cancels. -/
  cancelAfter : Option Duration := none
  deriving DecidableEq

/-- The context that settings ask for. -/
def Context.ofSettings (w : WarehouseSettings) : Context where
  connection := w.connection
  deadline := w.timeout?.map (Duration.ofParts · 0)

/-- What a warehouse gets. -/
structure Sent where
  sql : String
  params : List Value

/-- What a warehouse gives back, and after what time. -/
structure Reply where
  delay : Duration
  outcome : Except Error (List Row)

/-- A warehouse. -/
structure Warehouse where
  dialect : Dialect
  answer : Context → Sent → Reply

end Targeting
