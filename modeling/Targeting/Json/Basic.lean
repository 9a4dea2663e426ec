import Targeting.Decimal.Binary64
import Targeting.Keyed
import Targeting.Word

/-!
# JSON values

A number is an integer of at most 64 bits, signed or unsigned, or a finite double; an object is a list
of members in the order in which they are written. Values that are compared or merged by key keep
their keys sorted and apart.

* `Json.Number`, `Json`;
* `Json.sorted`: the object with members by key, the last of repeated keys counting;
* `Json.get?`: the member of an object.
-/

namespace Targeting

/-- The integers that a JSON number holds exactly. -/
abbrev Json.Word : Type := { n : Int // leastInt64 ≤ n ∧ n ≤ greatestUInt64 }

/-- A JSON number. -/
inductive Json.Number
  | integer (n : Json.Word)
  | float (x : Binary64.Finite)
  deriving DecidableEq

/-- A JSON value. -/
inductive Json
  | null
  | bool (b : Bool)
  | number (n : Json.Number)
  | string (s : String)
  | array (items : List Json)
  | object (members : List (String × Json))

namespace Json

instance : Inhabited Json := ⟨.null⟩

/-- A natural number of 64 bits as a JSON number. -/
def ofUInt64 (n : UInt64) : Json :=
  .number (.integer ⟨n.toNat, by simp only [leastInt64]; omega,
    by have := n.toNat_lt; simp only [greatestUInt64]; omega⟩)

/-- An integer of 64 bits as a JSON number. -/
def ofInt64 (n : Int64) : Json :=
  .number (.integer ⟨n.toInt, n.le_toInt,
    by have := n.toInt_lt; simp only [greatestUInt64]; omega⟩)

/-- A double as a JSON number; one that is not finite becomes `null`. -/
def ofBinary64 : Binary64 → Json
  | .finite x => .number (.float x)
  | _ => .null

/-- An optional value, `null` where it is absent. -/
def ofOption {α : Type} (f : α → Json) : Option α → Json
  | none => .null
  | some a => f a

/-- A list of texts. -/
def ofStrings (ss : List String) : Json := .array (ss.map .string)

/-- The object with the given members sorted by key, of repeated keys the last. -/
def sorted (members : List (String × Json)) : Json := .object (Keyed.ofList members)

/-- The value of a member of an object. -/
def get? (key : String) : Json → Option Json
  | .object members => members.lookup key
  | _ => none

end Json

end Targeting
