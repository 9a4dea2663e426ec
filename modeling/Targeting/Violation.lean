import Targeting.Keyed

/-!
# Violations

What is wrong with data that a caller hands in: a message with a code and parameters, or further
violations filed under the paths of the places where they occur. Parameters and paths are kept
sorted.

* `Violation`, `Violation.atPath`;
* `Violation.text`: the message, or the messages of all paths if there is none.
-/

namespace Targeting

/-- What is wrong with data that was handed in. -/
inductive Violation
  | mk (message code : String) (params : List (String × String))
      (fields : List (String × List Violation))

namespace Violation

instance : Inhabited Violation := ⟨⟨"", "", [], []⟩⟩

/-- A violation with a message and a code. -/
def simple (message code : String) : Violation := ⟨message, code, [], []⟩

/-- Violations filed under paths, of which a later one replaces an earlier one. -/
def ofFields (fields : List (String × List Violation)) : Violation :=
  ⟨"", "", [], Keyed.ofList fields⟩

/-- A violation filed under one path. -/
def atPath (path : String) (v : Violation) : Violation := ofFields [(path, [v])]

/-- The same violation with one more parameter. -/
def withParam (key value : String) : Violation → Violation
  | ⟨message, code, params, fields⟩ => ⟨message, code, Keyed.insert key value params, fields⟩

/-- The same violation with another message. -/
def withMessage (message : String) : Violation → Violation
  | ⟨_, code, params, fields⟩ => ⟨message, code, params, fields⟩

/-- The message. -/
def message : Violation → String
  | ⟨message, _, _, _⟩ => message

/-- The code. -/
def code : Violation → String
  | ⟨_, code, _, _⟩ => code

/-- The parameters. -/
def params : Violation → List (String × String)
  | ⟨_, _, params, _⟩ => params

/-- The violations under paths. -/
def fields : Violation → List (String × List Violation)
  | ⟨_, _, _, fields⟩ => fields

mutual

/-- The text of a violation. -/
def text : Violation → String
  | ⟨message, _, _, fields⟩ =>
    if message ≠ "" then message else String.intercalate "; " (fieldLines fields)

/-- A line for each violation under each path. -/
def fieldLines : List (String × List Violation) → List String
  | [] => []
  | (path, vs) :: rest => pathLines path vs ++ fieldLines rest

/-- A line for each violation under one path. -/
def pathLines (path : String) : List Violation → List String
  | [] => []
  | v :: rest => (path ++ ": " ++ v.text) :: pathLines path rest

end

end Violation

end Targeting
