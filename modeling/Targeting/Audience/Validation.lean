import Targeting.Audience.Basic
import Targeting.Error

/-!
# Valid audiences

Before anything is compiled an audience is checked: it has objects; aliases are identifiers and each is
used once; tables, primary keys, columns and the join key are identifiers; a relationship names only
aliases of the audience. The first problem counts: objects in order, then the join key, then the
relationships.

* `Audience.problem?`, `Audience.validate`.
-/

namespace Targeting

/-- The first problem of an object after the aliases seen before it. -/
def Placement.problem? (seen : List String) (p : Placement) : Option ConfigurationProblem :=
  if !isIdentifier p.label then some (.invalidAlias p.label)
  else if seen.contains p.label then some (.duplicateAlias p.label)
  else if !isQualified p.object.table then some (.invalidTable p.object.table p.label)
  else if !isIdentifier p.object.primaryKey then
    some (.invalidPrimaryKey p.object.primaryKey p.object.name)
  else (p.object.fields.find? fun f => !isIdentifier f.columnName).map fun f =>
    .invalidColumn f.columnName f.name p.object.name

namespace Audience

/-- The first problem of the objects after the aliases seen before them. -/
def objectProblem? (seen : List String) : List Placement → Option ConfigurationProblem
  | [] => none
  | p :: rest =>
    match p.problem? seen with
    | some problem => some problem
    | none => objectProblem? (p.label :: seen) rest

/-- The problem of the join key. -/
def keyProblem? (a : Audience) : Option ConfigurationProblem :=
  match a.joinKey with
  | some key => if isIdentifier key then none else some (.invalidJoinKey key)
  | none => none

/-- The first alias that a relationship names and the audience does not have. -/
def endProblem? (a : Audience) : Option ConfigurationProblem :=
  ((a.relationships.flatMap Relationship.ends).find? fun label =>
    !(a.objects.map Placement.label).contains label).map .unknownEndpoint

/-- The first problem of an audience. -/
def problem? (a : Audience) : Option ConfigurationProblem :=
  if a.objects.isEmpty then some .noObjects
  else (objectProblem? [] a.objects).orElse fun _ => a.keyProblem?.orElse fun _ => a.endProblem?

/-- An audience without problems passes. -/
def validate (a : Audience) : Except Error Unit :=
  match a.problem? with
  | some problem => .error (.configuration problem)
  | none => .ok ()

end Audience

end Targeting
