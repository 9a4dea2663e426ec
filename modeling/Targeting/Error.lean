import Targeting.Dialect
import Targeting.Duration
import Targeting.Json.Fault
import Targeting.Role
import Targeting.Violation

/-!
# Errors

Everything that can go wrong, by its cause. Problems of an audience or of the settings, of the filters
that a caller hands in, and of the warehouse are kept apart, because a caller answers them differently.

* `ConfigurationProblem`: why an audience or its surroundings cannot be used;
* `Error`, `Error.message`: all errors and their texts;
* `Error.status`, `Error.interrupted`: how a service answers, and whether a query was cut short.
-/

namespace Targeting

/-- Why an audience, the settings or a connection cannot be used. -/
inductive ConfigurationProblem
  | noObjects
  | invalidAlias (label : String)
  | duplicateAlias (label : String)
  | invalidTable (table label : String)
  | invalidPrimaryKey (key object : String)
  | invalidColumn (column field object : String)
  | invalidJoinKey (key : String)
  | unknownEndpoint (label : String)
  | unreadableAudience (fault : Fault)
  | unknownField (field object label : String)
  | noRole (role : Role) (marker : String)
  | sameRoles (label : String)
  | notConnected (object label root : String)
  | noFilterTarget (role : Role)
  | targetNotJoined (role : Role) (object label : String)
  | unknownObject (label : String)
  | unreadableFile (format path reason : String)
  | malformedSettings (format : String)
  | unfitSettings (format : String) (fault : Fault)
  | unknownDialect (name : String)
  | targetMissing
  | noTarget
  | failedReview (errors : Nat)
  | dialectMismatch (id : String) (spoken expected : Dialect)
  | unknownConnection (id : String)
  /-- A problem that is only known by its words. -/
  | stated (text : String)

namespace ConfigurationProblem

/-- The wording of a problem. -/
def message : ConfigurationProblem → String
  | noObjects => "Audience has no objects"
  | invalidAlias label => s!"Invalid alias '{label}'"
  | duplicateAlias label => s!"Duplicate alias '{label}'"
  | invalidTable table label => s!"Invalid table name '{table}' for alias '{label}'"
  | invalidPrimaryKey key object => s!"Invalid primary key '{key}' on object '{object}'"
  | invalidColumn column field object =>
    s!"Invalid column '{column}' for field '{field}' on object '{object}'"
  | invalidJoinKey key => s!"Invalid join key '{key}'"
  | unknownEndpoint label => s!"Relationship references unknown alias '{label}'"
  | unreadableAudience fault => s!"Invalid audience configuration: {fault.message}"
  | unknownField field object label =>
    s!"Field '{field}' is not in the catalog of object '{object}' (alias {label})"
  | noRole role marker =>
    s!"Audience has no {role.name} object: tag one with role \"{role.name}\" or include a '{marker}' field"
  | sameRoles label => s!"Object '{label}' cannot be both parent and child"
  | notConnected object label root =>
    s!"Object '{object}' (alias {label}) is not connected to root '{root}'"
  | noFilterTarget role =>
    s!"{role.listName} were given but the audience has no {role.name} object"
  | targetNotJoined role object label =>
    s!"{role.listName} target object '{object}' (alias {label}), which is not joined"
  | unknownObject label => s!"Unknown object alias '{label}'"
  | unreadableFile format path reason => s!"Failed to read {format} file '{path}': {reason}"
  | malformedSettings format => s!"Failed to parse {format}: malformed {format}"
  | unfitSettings format fault => s!"Failed to deserialize settings from {format}: {fault.message}"
  | unknownDialect name => s!"Unknown dialect '{name}'"
  | targetMissing => "--mode distinct needs --object and --field"
  | noTarget => "No distinct-values target"
  | failedReview errors => s!"Audience check found {errors} error(s)"
  | dialectMismatch id spoken expected =>
    s!"Connection '{id}' speaks {spoken.title}, registry expects {expected.title}"
  | unknownConnection id => s!"Unknown warehouse connection '{id}'"
  | stated text => text

end ConfigurationProblem

/-- Everything that can go wrong. A mode is the name of the query that was run. -/
inductive Error
  | configuration (problem : ConfigurationProblem)
  | notFound (what : String)
  | validation (violation : Violation)
  | execution (mode sql reason : String)
  | timeout (mode : String) (deadline : Duration)
  | cancelled (mode : String)
  | warehouse (text : String)
  | serialization (text : String)
  | io (text : String)

namespace Error

/-- The text of an error. -/
def message : Error → String
  | configuration problem => "Configuration error: " ++ problem.message
  | notFound what => "Not found: " ++ what
  | validation violation => "Validation error: " ++ violation.text
  | execution mode _ reason => s!"Execution error in {mode} query: {reason}"
  | timeout mode deadline => s!"{mode} query timed out after {deadline.text}"
  | cancelled mode => s!"{mode} query was cancelled"
  | warehouse text => "Warehouse error: " ++ text
  | serialization text => "Serialization error: " ++ text
  | io text => "IO error: " ++ text

/-- The status with which a web service answers an error. -/
def status : Error → Nat
  | validation _ => 400
  | notFound _ => 404
  | timeout _ _ => 504
  | _ => 500

/-- A query was cut short by its deadline or its caller. -/
def interrupted : Error → Bool
  | timeout _ _ | cancelled _ => true
  | _ => false

end Error

end Targeting
