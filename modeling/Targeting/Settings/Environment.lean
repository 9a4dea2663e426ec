import Targeting.Settings.Basic
import Targeting.Text.Numeral
import Targeting.Word

/-!
# Settings from the environment

Variables of the environment win over every other source of settings. A value that cannot be read leaves
the setting as it is; a flag is set by a few words and cleared by all others.

* `Settings.overrides`: the variables and what they set;
* `Settings.override`: settings with the variables of an environment applied.
-/

namespace Targeting

/-- The words that set a flag. -/
def isYes (s : String) : Bool :=
  ["true", "1", "yes"].any fun word => Text.sameLetters word (Text.trimBlank s)

/-- A natural number of 64 bits with white space around it. -/
def uint64? (s : String) : Option UInt64 :=
  (Text.natural? greatestUInt64 (Text.trimBlank s)).map UInt64.ofNat

namespace Settings

/-- Settings with another dialect. -/
def setDialect (d : Dialect) (s : Settings) : Settings :=
  { s with warehouse := { s.warehouse with dialect := d } }

/-- Settings with another connection. -/
def setConnection (id : String) (s : Settings) : Settings :=
  { s with warehouse := { s.warehouse with connection := id } }

/-- Settings with another deadline. -/
def setTimeout (seconds : UInt64) (s : Settings) : Settings :=
  { s with warehouse := { s.warehouse with timeoutSeconds := seconds } }

/-- Settings with another cap on previews. -/
def setPreviewLimit (n : UInt64) (s : Settings) : Settings :=
  { s with compiler := { s.compiler with previewLimit := n } }

/-- Settings with unknown operators refused or not. -/
def setStrict (b : Bool) (s : Settings) : Settings :=
  { s with compiler := { s.compiler with strictOperators := b } }

/-- Settings with another value mode. -/
def setValueMode (m : ValueMode) (s : Settings) : Settings :=
  { s with compiler := { s.compiler with valueMode := m } }

/-- The value mode with a name, whatever its ASCII case and the white space around it. -/
def valueMode? (raw : String) : Option ValueMode :=
  ValueMode.byName.lookup (Text.lowerAscii (Text.trimBlank raw))

/-- The variables, each with the settings that its value makes of others, if the value can be read. -/
def overrides : List (String × (String → Settings → Option Settings)) :=
  [("AUDIENCE_LOG_LEVEL", fun v s => some { s with logLevel := v }),
    ("AUDIENCE_DEBUG", fun v s => some { s with debug := isYes v }),
    ("AUDIENCE_WAREHOUSE_DIALECT", fun v s => (Dialect.ofName? v).map s.setDialect),
    ("AUDIENCE_CONNECTION_ID", fun v s => some (s.setConnection v)),
    ("AUDIENCE_QUERY_TIMEOUT_SECS", fun v s => (uint64? v).map s.setTimeout),
    ("AUDIENCE_PREVIEW_LIMIT", fun v s => (uint64? v).map s.setPreviewLimit),
    ("AUDIENCE_STRICT_OPERATORS", fun v s => some (s.setStrict (isYes v))),
    ("AUDIENCE_VALUE_MODE", fun v s => (valueMode? v).map s.setValueMode)]

/-- Settings with the variables of an environment applied. -/
def override (env : String → Option String) (s : Settings) : Settings :=
  overrides.foldl (fun s (name, set) => ((env name).bind (set · s)).getD s) s

end Settings

end Targeting
