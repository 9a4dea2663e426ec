import Targeting.Json.Document
import Targeting.Decimal.Style
import Targeting.Text.Quoted

/-!
# Why data does not fit

The reasons for which a document is not the data that was asked for, and their wording.

* `Found`: what stood in the place of something else;
* `Fault`, `Fault.message`: the reasons and their texts;
* `Document.mismatch`: the reason that a document is of the wrong kind altogether.
-/

namespace Targeting

/-- What stood in the place of something else. -/
inductive Found
  | null
  | bool (b : Bool)
  | integer (n : Int)
  | float (x : Binary64.Finite)
  | string (s : String)
  | sequence
  | map
  deriving DecidableEq

/-- The wording of what was found. -/
def Found.text : Found → String
  | .null => "null"
  | .bool b => "boolean `" ++ (if b then "true" else "false") ++ "`"
  | .integer n => "integer `" ++ toString n ++ "`"
  | .float x => "floating point `" ++ Style.json.writeFinite x ++ "`"
  | .string s => "string " ++ Text.quoted s
  | .sequence => "sequence"
  | .map => "map"

/-- Why a document is not the data asked for. -/
inductive Fault
  /-- The text is no JSON at this place, or a form that no value of the kind has. -/
  | malformed
  | missingField (name : String)
  | duplicateField (name : String)
  | invalidType (found : Found) (expected : String)
  | outOfRange (n : Int) (expected : String)
  /-- A choice written as a map with no key or with several. -/
  | notOneKey
  | invalidLength (n : Nat) (expected : String)
  | unknownVariant (name : String) (known : List String)
  /-- None of the forms of the named kind. -/
  | noForm (kind : String)
  /-- A string that does not have the form it should have. -/
  | unparsable (kind : String)
  deriving DecidableEq

namespace Fault

/-- A name between backquotes. -/
def ticked (s : String) : String := "`" ++ s ++ "`"

/-- The wording of the choices. -/
def choices : List String → String
  | [a] => ticked a
  | [a, b] => ticked a ++ " or " ++ ticked b
  | names => "one of " ++ String.intercalate ", " (names.map ticked)

/-- The wording of a reason. -/
def message : Fault → String
  | malformed => "malformed JSON"
  | missingField name => "missing field " ++ ticked name
  | duplicateField name => "duplicate field " ++ ticked name
  | invalidType found expected => "invalid type: " ++ found.text ++ ", expected " ++ expected
  | outOfRange n expected =>
    "invalid value: " ++ (Found.integer n).text ++ ", expected " ++ expected
  | notOneKey => "invalid value: map, expected map with a single key"
  | invalidLength n expected => "invalid length " ++ toString n ++ ", expected " ++ expected
  | unknownVariant name known =>
    "unknown variant " ++ ticked name ++ ", expected " ++ choices known
  | noForm kind => "data did not match any variant of untagged enum " ++ kind
  | unparsable kind => "malformed " ++ kind

end Fault

namespace Document

/-- The reason that a document is not even of the expected kind. -/
def mismatch (expected : String) : Document → Fault
  | .null => .invalidType .null expected
  | .bool b => .invalidType (.bool b) expected
  | .number (.integer n) => .invalidType (.integer n.val) expected
  | .number (.float x) => .invalidType (.float x) expected
  | .string s => .invalidType (.string s) expected
  | .array _ => .invalidType .sequence expected
  | .object _ => .invalidType .map expected
  | .unreadable => .malformed
  | .broken => .malformed

end Document

end Targeting
