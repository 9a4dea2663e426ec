import Targeting.CommandLine.Execution

/-!
# The program

Reads the files that a command line names, carries it out, and prints what comes of it.
-/

namespace Targeting.CommandLine

/-- The reason that the system gives for an error. -/
def reasonOf : IO.Error → String
  | .noFileOrDirectory _ code details => s!"{details} (os error {code})"
  | .permissionDenied _ code details => s!"{details} (os error {code})"
  | .inappropriateType _ code details => s!"{details} (os error {code})"
  | .invalidArgument _ code details => s!"{details} (os error {code})"
  | e => e.toString

/-- The contents of a file. -/
def readFile (path : String) : IO (Except String String) := do
  try
    let bytes ← IO.FS.readBinFile path
    match String.fromUTF8? bytes with
    | some text => return .ok text
    | none => return .error "stream did not contain valid UTF-8"
  catch e => return .error (reasonOf e)

/-- The files of an invocation. -/
def Invocation.files (i : Invocation) : List String :=
  i.settings.toList ++ i.command.inputs.filter (· ≠ "-")

/-- The surroundings in which an invocation is carried out. -/
def Invocation.surroundings (i : Invocation) : IO Surroundings := do
  let contents ← i.files.mapM fun path => do return (path, ← readFile path)
  let values ← Settings.overrides.mapM fun v => do return (v.1, ← IO.getEnv v.1)
  let input ← if i.command.inputs.contains "-" then (← IO.getStdin).readToEnd else pure ""
  return {
    file := fun path => (contents.lookup path).getD (.error "not read")
    environment := fun name => (values.lookup name).join
    input }

/-- How the program is used. -/
def usage : String :=
  "Usage: [--settings FILE] compile|run|check --audience FILE [--filters FILE] [OPTIONS]\n"

/-- The outcome of a command line in the surroundings of the process. -/
def performHere (words : List String) : IO Outcome := do
  match Invocation.ofWords words with
  | .ok i => return i.execute (← i.surroundings)
  | .error stop => return { output := "", failure := some (.stopped stop) }

/-- Prints an outcome. -/
def Outcome.print (o : Outcome) : IO Unit := do
  IO.print o.output
  match o.failure with
  | none => pure ()
  | some (.stopped .help) => IO.print usage
  | some (.stopped .usage) => IO.eprint usage
  | some (.failed e) => IO.eprintln ("error: " ++ e.message)

end Targeting.CommandLine

/-- The program. -/
def main (words : List String) : IO UInt32 := do
  let outcome ← Targeting.CommandLine.performHere words
  outcome.print
  return outcome.code.toUInt32
