import Targeting.Query.Joins
import Targeting.Query.Staged

/-!
# Reviews

A review says how an audience will be compiled: which objects are the parent and the child, how objects are
joined, and which are left out; with filters, also how these are compiled. An audience that is not
valid is not looked at further.

* `Finding`, `Finding.id`, `Finding.level`, `Finding.message`, `Finding.hint?`;
* `Audience.review`: the findings.
-/

namespace Targeting

/-- How much a finding matters. -/
inductive Level
  | info
  | warning
  | error
  deriving DecidableEq

/-- The name of a level. -/
def Level.name : Level → String
  | .info => "INFO"
  | .warning => "WARNING"
  | .error => "ERROR"

/-- One thing that a review finds. -/
inductive Finding
  | invalid (e : Error)
  | part (role : Role) (p : Placement)
  | noParts (e : Error)
  | joins (clause : String)
  | leftOut (w : Warning)
  | noJoins (e : Error)
  | filterWarning (w : Warning)
  | filterError (e : Error)

namespace Finding

/-- The stable identifier of a kind of finding. -/
def id : Finding → String
  | invalid _ => "audience.E001"
  | part _ _ => "audience.I001"
  | noParts _ => "audience.E002"
  | joins _ => "audience.I002"
  | leftOut _ => "audience.W001"
  | noJoins _ => "audience.E003"
  | filterWarning _ => "filters.W001"
  | filterError _ => "filters.E001"

/-- How much a finding matters. -/
def level : Finding → Level
  | part _ _ | joins _ => .info
  | leftOut _ | filterWarning _ => .warning
  | invalid _ | noParts _ | noJoins _ | filterError _ => .error

/-- How it is known that an object plays a role. -/
def evidence (p : Placement) : String :=
  if p.role.isSome then "tagged" else "inferred from marker field"

/-- The text of a finding. -/
def message : Finding → String
  | invalid e | noParts e | noJoins e | filterError e => e.message
  | part role p =>
    role.title ++ " object: " ++ p.object.name ++ " (alias " ++ p.label ++ ", " ++ evidence p ++ ")"
  | joins clause => clause
  | leftOut w | filterWarning w => w.text

/-- What may be done about a finding. -/
def hint? : Finding → Option String
  | noParts _ =>
    some "Set \"role\": \"parent\" and \"role\": \"child\" on the configured objects"
  | leftOut _ => some "Add a relationship whose join condition references the alias"
  | _ => none

/-- A finding as a line, with the hint on a line of its own. -/
def text (f : Finding) : String :=
  f.level.name ++ " (" ++ f.id ++ "): " ++ f.message ++
    match f.hint? with
    | some hint => "\n\tHINT: " ++ hint
    | none => ""

end Finding

namespace Audience

variable (a : Audience) (o : CompilerSettings)

/-- What is found about the parent and the child. -/
def reviewParts : List Finding :=
  match a.parts o with
  | .ok parts => [.part .parent parts.parent, .part .child parts.child]
  | .error e => [.noParts e]

/-- What is found about the joins. -/
def reviewJoins : List Finding :=
  match JoinPlan.build a o.joinStrategy with
  | .ok plan => .joins plan.clause :: plan.warnings.map .leftOut
  | .error e => [.noJoins e]

/-- What is found about filters. -/
def reviewFilters (fs : FilterSet) : List Finding :=
  match a.counts o fs with
  | .ok q => q.warnings.map .filterWarning
  | .error e => [.filterError e]

/-- The findings about an audience, and about filters if there are any to look at. -/
def review (fs : Option FilterSet) : List Finding :=
  match a.validate with
  | .error e => [.invalid e]
  | .ok () =>
    a.reviewParts o ++ a.reviewJoins o ++
      match fs with
      | some fs => a.reviewFilters o fs
      | none => []

end Audience

end Targeting
