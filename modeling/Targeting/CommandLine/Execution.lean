import Targeting.Audience.Format
import Targeting.CommandLine.Invocation
import Targeting.Filter.Format
import Targeting.Review
import Targeting.Settings.Environment
import Targeting.Settings.Format
import Targeting.Task

/-!
# Carrying out invocations

First the settings are loaded, then the audience, then the filters; only then does the command do its work.
The file `-` is the standard input, which can be read once.

* `Surroundings`: files, variables and standard input;
* `Outcome`: what is printed, and what went wrong;
* `Invocation.execute`, `perform`: the outcome of an invocation, and of a command line.
-/

namespace Targeting.CommandLine

/-- Where a command is carried out. A file that cannot be read gives the reason. -/
structure Surroundings where
  file : String → Except String String
  environment : String → Option String
  input : String

/-- Why a command line fails. -/
inductive Failure
  | stopped (s : Stop)
  | failed (e : Error)

/-- What comes of a command line. -/
structure Outcome where
  output : String
  failure : Option Failure

/-- The exit code. -/
def Outcome.code (o : Outcome) : UInt8 :=
  match o.failure with
  | none => 0
  | some (.stopped .help) => 0
  | some (.failed _) => 1
  | some (.stopped .usage) => 2

/-- What is printed, or an error. -/
def Outcome.of : Except Error String → Outcome
  | .ok output => { output, failure := none }
  | .error e => { output := "", failure := some (.failed e) }

/-! ## Files -/

/-- The last part of a path that names anything. -/
def fileName (path : String) : List Char :=
  let parts := (path.toList.splitBy fun a b => a ≠ '/' && b ≠ '/').filter fun p =>
    p ≠ ['/'] && p ≠ ['.']
  parts.getLastD []

/-- The extension of a path is `json`. -/
def isJsonFile (path : String) : Bool :=
  let reversed := (fileName path).reverse
  reversed.take 5 = ".json".toList.reverse && 5 < reversed.length

/-- The contents of a file, or of the standard input unless that is used up. -/
def Surroundings.read (s : Surroundings) (used : Bool) (path : String) : Except Error String :=
  if path = "-" then .ok (if used then "" else s.input) else (s.file path).mapError .io

/-- The settings of a file, or the defaults. -/
def Surroundings.settingsIn (s : Surroundings) : Option String → Except Error Settings
  | none => .ok {}
  | some path =>
    let format := if isJsonFile path then "JSON" else "TOML"
    match s.file path with
    | .error reason => .error (.configuration (.unreadableFile format path reason))
    | .ok text => if isJsonFile path then Settings.ofJsonText text else Settings.ofTomlText text

/-- The settings that hold: those of a file or the defaults, with the variables applied. -/
def Surroundings.settings (s : Surroundings) (path : Option String) : Except Error Settings :=
  (s.settingsIn path).map (Settings.override s.environment)

/-- Filters after the audience was read; without a file there are none. -/
def Surroundings.filters (s : Surroundings) (audience : String) (path : Option String) :
    Except Error (Option FilterSet) :=
  match path with
  | none => .ok none
  | some path => do
    let text ← s.read (audience = "-") path
    return some (← FilterSet.ofText text)

/-! ## Commands -/

/-- The task that options ask for. -/
def QueryOptions.task (q : QueryOptions) : Except Error Task :=
  match q.mode with
  | "counts" => .ok .counts
  | "preview" => .ok .preview
  | "distinct" =>
    match q.object, q.field with
    | some object, some field => .ok (.distinct (some (object, field)))
    | _, _ => .error (.configuration .targetMissing)
  | _ => .ok .listing

/-- The request that options make. -/
def QueryOptions.request (q : QueryOptions) (s : Surroundings) : Except Error Request := do
  let task ← q.task
  let audience ← Audience.ofValidText (← s.read false q.audience)
  let filters ← s.filters q.audience q.filters
  return { audience, filters := filters.getD {}, task, limit := q.limit }

/-- The dialect with a name, if one is given. -/
def chooseDialect (name : Option String) (o : CompileOptions) : Except Error CompileOptions :=
  match name with
  | none => .ok o
  | some name =>
    match Dialect.ofName? name with
    | some d => .ok (o.withDialect d)
    | none => .error (.configuration (.unknownDialect name))

/-- A JSON value as it is printed. -/
def printed (v : Json) : String := v.pretty ++ "\n"

/-- What is printed of compiled queries. -/
def compile (q : QueryOptions) (dialect : Option String) (inline strict : Bool) (settings : Settings)
    (s : Surroundings) : Except Error String := do
  let request ← q.request s
  let o ← chooseDialect dialect settings.compileOptions
  let o := if inline then o.withValueMode .inline else o
  let o := if strict then o.strict else o
  return printed (← request.compile o)

/-- A warehouse that answers nothing. -/
def silentWarehouse : Warehouse where
  dialect := .sqlite
  answer := fun _ _ =>
    { delay := ⟨0⟩, outcome := .error (.warehouse "no database driver is available") }

/-- What is printed of what queries yield. -/
def run (q : QueryOptions) (settings : Settings) (s : Surroundings) : Except Error String := do
  let request ← q.request s
  let answer := request.run settings.compileOptions silentWarehouse (.ofSettings settings.warehouse)
  return printed (← answer.outcome)

/-- The outcome of a review. -/
def check (audience : String) (filters : Option String) (settings : Settings) (s : Surroundings) :
    Except Error Outcome := do
  let a ← Audience.ofText (← s.read false audience)
  let fs ← s.filters audience filters
  let findings := a.review settings.compiler fs
  let errors := (findings.filter (·.level = .error)).length
  return {
    output := String.join (findings.map fun f => f.text ++ "\n")
    failure := if errors = 0 then none else some (.failed (.configuration (.failedReview errors))) }

/-- The outcome of an invocation. -/
def Invocation.execute (i : Invocation) (s : Surroundings) : Outcome :=
  match s.settings i.settings with
  | .error e => .of (.error e)
  | .ok settings =>
    match i.command with
    | .compile q dialect inline strict => .of (compile q dialect inline strict settings s)
    | .run q _ => .of (run q settings s)
    | .check audience filters =>
      match check audience filters settings s with
      | .ok outcome => outcome
      | .error e => .of (.error e)

/-- The outcome of a command line. -/
def perform (words : List String) (s : Surroundings) : Outcome :=
  match Invocation.ofWords words with
  | .ok i => i.execute s
  | .error stop => { output := "", failure := some (.stopped stop) }

end Targeting.CommandLine
