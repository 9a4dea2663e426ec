import Targeting.Error
import Targeting.Json.Merge
import Targeting.Json.Record
import Targeting.Settings.Basic
import Targeting.Toml.Document

/-!
# Settings as JSON and TOML

A text of settings names only what differs from the defaults: it is laid over them member by member,
and then all settings are read from the result.

* `Settings.toJson`: all settings;
* `Settings.ofJsonText`, `Settings.ofTomlText`: the settings of a text.
-/

namespace Targeting

/-- The warehouse settings as JSON. -/
def WarehouseSettings.toJson (w : WarehouseSettings) : Json :=
  .sorted [("dialect", .string w.dialect.name), ("connection_id", .string w.connection),
    ("query_timeout_secs", .ofUInt64 w.timeoutSeconds)]

/-- The compiler settings as JSON. -/
def CompilerSettings.toJson (c : CompilerSettings) : Json :=
  .sorted [("value_mode", .string c.valueMode.name), ("grouping", .string c.grouping.name),
    ("join_strategy", .string c.joinStrategy.name), ("preview_limit", .ofUInt64 c.previewLimit),
    ("default_join_key", .string c.defaultJoinKey),
    ("parent_marker_field", .string c.parentMarker),
    ("child_marker_field", .string c.childMarker),
    ("strict_operators", .bool c.strictOperators)]

/-- The cohort settings as JSON. -/
def CohortSettings.toJson (c : CohortSettings) : Json :=
  .sorted [("count_ttl_secs", .ofUInt64 c.countSeconds)]

/-- All settings as JSON. -/
def Settings.toJson (s : Settings) : Json :=
  .sorted [("debug", .bool s.debug), ("log_level", .string s.logLevel),
    ("warehouse", s.warehouse.toJson), ("compiler", s.compiler.toJson),
    ("cohort", s.cohort.toJson)]

/-- How the warehouse settings are read. -/
def WarehouseSettings.record : Record WarehouseSettings where
  title := "WarehouseSettings"
  blank := {}
  members :=
    [.required "dialect" (Read.choice .value Dialect.byName) fun v w => { w with dialect := v },
      .required "connection_id" Read.string fun v w => { w with connection := v },
      .required "query_timeout_secs" (Read.uint64 "u64") fun v w => { w with timeoutSeconds := v }]

/-- How the compiler settings are read. -/
def CompilerSettings.record : Record CompilerSettings where
  title := "CompilerSettings"
  blank := {}
  members :=
    [.required "value_mode" (Read.choice .value ValueMode.byName)
        fun v c => { c with valueMode := v },
      .required "grouping" (Read.choice .value Grouping.byName) fun v c => { c with grouping := v },
      .required "join_strategy" (Read.choice .value JoinStrategy.byName)
        fun v c => { c with joinStrategy := v },
      .required "preview_limit" (Read.uint64 "usize") fun v c => { c with previewLimit := v },
      .required "default_join_key" Read.string fun v c => { c with defaultJoinKey := v },
      .required "parent_marker_field" Read.string fun v c => { c with parentMarker := v },
      .required "child_marker_field" Read.string fun v c => { c with childMarker := v },
      .required "strict_operators" Read.bool fun v c => { c with strictOperators := v }]

/-- How the cohort settings are read. -/
def CohortSettings.record : Record CohortSettings where
  title := "CohortSettings"
  blank := {}
  members := [.required "count_ttl_secs" (Read.uint64 "u64") fun v c => { c with countSeconds := v }]

/-- How all settings are read. -/
def Settings.record : Record Settings where
  title := "Settings"
  blank := {}
  members :=
    [.required "debug" Read.bool fun v s => { s with debug := v },
      .required "log_level" Read.string fun v s => { s with logLevel := v },
      .required "warehouse" (WarehouseSettings.record.read .value)
        fun v s => { s with warehouse := v },
      .required "compiler" (CompilerSettings.record.read .value)
        fun v s => { s with compiler := v },
      .required "cohort" (CohortSettings.record.read .value) fun v s => { s with cohort := v }]

namespace Settings

/-- The settings that a value asks for. -/
def ofJson (v : Json) : Except Fault Settings :=
  Read.ofJson (record.read .value) (v.laidOver (toJson {}))

/-- The settings of a value that was read from a text of the named format, if it could be read. -/
def ofParsed (format : String) : Option Json → Except Error Settings
  | none => .error (.configuration (.malformedSettings format))
  | some v => (ofJson v).mapError fun fault => .configuration (.unfitSettings format fault)

/-- The settings of a JSON text. -/
def ofJsonText (s : String) : Except Error Settings := ofParsed "JSON" (Json.parse? s)

/-- The settings of a TOML text. -/
def ofTomlText (s : String) : Except Error Settings := ofParsed "TOML" (Toml.parse? s)

end Settings

end Targeting
