import Targeting.Calendar.Instant
import Targeting.Json.Printer
import Targeting.Text.Quoted

/-!
# Values

The values that go to a warehouse as operands and come back in rows.

* `Value`: the values;
* `Value.display`: a value for people; `Value.toJson`: a value for an answer;
* `Value.inspect`: a value quoted in a message.
-/

namespace Targeting

/-- A value of a column or an operand. -/
inductive Value
  | null
  | bool (b : Bool)
  | int (n : Int64)
  | float (x : Binary64)
  | string (s : String)
  | date (d : Calendar.Date)
  | dateTime (t : Calendar.LocalTime)
  | json (v : Json)
  | list (items : List Value)

namespace Value

instance : Inhabited Value := ⟨.null⟩

/-- The value is null. -/
def isNull : Value → Bool
  | null => true
  | _ => false

/-- The integer that a value is. -/
def asInt? : Value → Option Int64
  | int n => some n
  | _ => none

/-- The double that a value is. -/
def asFloat? : Value → Option Binary64
  | float x => some x
  | _ => none

/-- The text that a value is. -/
def asString? : Value → Option String
  | string s => some s
  | _ => none

/-- The text of a date and time of day as a value. -/
def dateTimeText (t : Calendar.LocalTime) : String := t.textWith " "

mutual

/-- A value as it is displayed. -/
def display : Value → String
  | null => "NULL"
  | bool b => if b then "true" else "false"
  | int n => toString n.toInt
  | float x => Style.plain.write x
  | string s => s
  | date d => d.text
  | dateTime t => dateTimeText t
  | json v => v.compact
  | list items => "[" ++ String.intercalate ", " (displays items) ++ "]"

/-- Values as they are displayed. -/
def displays : List Value → List String
  | [] => []
  | v :: rest => v.display :: displays rest

end

mutual

/-- A value in an answer. -/
def toJson : Value → Json
  | null => .null
  | bool b => .bool b
  | int n => .ofInt64 n
  | float x => .ofBinary64 x
  | string s => .string s
  | date d => .string d.text
  | dateTime t => .string (dateTimeText t)
  | json v => v
  | list items => .array (toJsons items)

/-- Values in an answer. -/
def toJsons : List Value → List Json
  | [] => []
  | v :: rest => v.toJson :: toJsons rest

end

/-! ## Quoting in messages -/

mutual

/-- A JSON value as a message quotes it inside another. -/
def inspectJson : Json → String
  | .null => "Null"
  | .bool b => "Bool(" ++ (if b then "true" else "false") ++ ")"
  | .number (.integer n) => "Number(" ++ toString n.val ++ ")"
  | .number (.float x) => "Number(" ++ Style.json.writeFinite x ++ ")"
  | .string s => "String(" ++ Text.quoted s ++ ")"
  | .array items => "Array [" ++ String.intercalate ", " (inspectItems items) ++ "]"
  | .object members =>
    "Object \x7b" ++ String.intercalate ", " (inspectMembers members) ++ "\x7d"

/-- JSON items as a message quotes them. -/
def inspectItems : List Json → List String
  | [] => []
  | v :: rest => inspectJson v :: inspectItems rest

/-- JSON members as a message quotes them. -/
def inspectMembers : List (String × Json) → List String
  | [] => []
  | (k, v) :: rest => (Text.quoted k ++ ": " ++ inspectJson v) :: inspectMembers rest

end

mutual

/-- A value as a message quotes it. -/
def inspect : Value → String
  | null => "Null"
  | bool b => "Bool(" ++ (if b then "true" else "false") ++ ")"
  | int n => "Int(" ++ toString n.toInt ++ ")"
  | float x => "Float(" ++ Style.inspect.write x ++ ")"
  | string s => "String(" ++ Text.quoted s ++ ")"
  | date d => "Date(" ++ d.text ++ ")"
  | dateTime t => "DateTime(" ++ t.textWith "T" ++ ")"
  | json v => "Json(" ++ inspectJson v ++ ")"
  | list items => "List([" ++ String.intercalate ", " (inspects items) ++ "])"

/-- Values as a message quotes them. -/
def inspects : List Value → List String
  | [] => []
  | v :: rest => v.inspect :: inspects rest

end

end Value

end Targeting
