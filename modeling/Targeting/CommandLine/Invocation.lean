import Targeting.CommandLine.Arguments
import Targeting.Word

/-!
# Invocations

What a command line asks for: one of three commands with its options, and perhaps a file of settings, which
may be named before or after the command.

* `QueryOptions`, `Command`, `Invocation`;
* `Invocation.ofWords`: the invocation of a list of words.
-/

namespace Targeting.CommandLine

/-- The options of a command that compiles or runs a query. -/
structure QueryOptions where
  audience : String
  filters : Option String := none
  mode : String := "listing"
  limit : Option Nat := none
  object : Option String := none
  field : Option String := none
  deriving DecidableEq

/-- A command with its options. -/
inductive Command
  | compile (q : QueryOptions) (dialect : Option String) (inline strict : Bool)
  | run (q : QueryOptions) (database : String)
  | check (audience : String) (filters : Option String)
  deriving DecidableEq

/-- What a command line asks for. -/
structure Invocation where
  settings : Option String
  command : Command
  deriving DecidableEq

/-- The names of the things that can be asked of an audience. -/
def modes : List String := ["listing", "counts", "preview", "distinct"]

/-- A number of rows. -/
def rows? (s : String) : Option Nat := Text.natural? greatestUInt64 s

/-- The option that names a file of settings. -/
def settingsSwitch : Switch := { name := "settings" }

/-- The options that name an audience and filters. -/
def inputSwitches : List Switch :=
  [settingsSwitch, { name := "audience", letter := some 'a' },
    { name := "filters", letter := some 'f' }]

/-- The options of a command that compiles or runs a query. -/
def querySwitches : List Switch :=
  inputSwitches ++
    [{ name := "mode", letter := some 'm', accepts := modes.contains },
      { name := "limit", letter := some 'n', accepts := fun s => (rows? s).isSome },
      { name := "object" }, { name := "field" }]

/-- The options of a command. -/
def switchesOf? (command : String) : Option (List Switch) :=
  [("compile", querySwitches ++ [{ name := "dialect" }, { name := "inline", takesValue := false },
      { name := "strict", takesValue := false }]),
    ("run", querySwitches ++ [{ name := "database", letter := some 'd' }]),
    ("check", inputSwitches)].lookup command

/-- The value of an option that must be given. -/
def require (given : Given) (name : String) : Except Stop String :=
  match given.lookup name with
  | some v => .ok v
  | none => .error .usage

/-- The query options among those given. -/
def queryOptions (given : Given) : Except Stop QueryOptions := do
  return {
    audience := ← require given "audience"
    filters := given.lookup "filters"
    mode := (given.lookup "mode").getD "listing"
    limit := (given.lookup "limit").bind rows?
    object := given.lookup "object"
    field := given.lookup "field" }

/-- The command with a name and the options given. -/
def commandOf (name : String) (given : Given) : Except Stop Command :=
  match name with
  | "compile" => do
    return .compile (← queryOptions given) (given.lookup "dialect")
      (given.lookup "inline").isSome (given.lookup "strict").isSome
  | "run" => do return .run (← queryOptions given) (← require given "database")
  | "check" => do return .check (← require given "audience") (given.lookup "filters")
  | _ => .error .usage

/-- What is left when help is asked for by name: nothing, or the name of a command. -/
def helpOn : List String → Stop
  | [] => .help
  | [name] => if (switchesOf? name).isSome || name = "help" then .help else .usage
  | _ => .usage

/-- The invocation of a list of words. -/
def Invocation.ofWords (words : List String) : Except Stop Invocation := do
  let (before, rest) ← readSwitches [settingsSwitch] [] words
  match rest with
  | [] => throw .usage
  | "help" :: rest => throw (helpOn rest)
  | name :: rest =>
    match switchesOf? name with
    | none => throw .usage
    | some switches =>
      let (given, rest) ← readSwitches switches [] rest
      if !rest.isEmpty then throw .usage
      let command ← commandOf name given
      return { settings := (given.lookup "settings").or (before.lookup "settings"), command }

/-- The files that an invocation reads beside its settings, in order. -/
def Command.inputs : Command → List String
  | .compile q _ _ _ | .run q _ => q.audience :: q.filters.toList
  | .check audience filters => audience :: filters.toList

end Targeting.CommandLine
