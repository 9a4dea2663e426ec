import Targeting.Audience.Basic
import Targeting.Error
import Targeting.Settings.Basic

/-!
# Parents and children

The object that plays a role is the first one tagged with it, or else the first untagged one whose
catalog has the marker field of the role.

* `Audience.findRole`: the object that plays a role;
* `Parts`, `Audience.parts`: the parent and the child, which are different objects;
* `CatalogObject.stageName`: the name under which qualified parents are kept within a query.
-/

namespace Targeting

/-- The field by which an untagged object is known to play a role. -/
def CompilerSettings.marker (o : CompilerSettings) : Role → String
  | .parent => o.parentMarker
  | .child => o.childMarker

/-- The parent and the child of an audience. -/
structure Parts where
  parent : Placement
  child : Placement
  deriving DecidableEq

namespace Audience

/-- The object that plays a role. -/
def findRole (a : Audience) (o : CompilerSettings) (role : Role) : Option Placement :=
  (a.objects.find? fun p => p.role = some role).orElse fun _ =>
    a.objects.find? fun p => p.role.isNone && (p.object.field? (o.marker role)).isSome

/-- The object that must play a role. -/
def requireRole (a : Audience) (o : CompilerSettings) (role : Role) : Except Error Placement :=
  match a.findRole o role with
  | some p => .ok p
  | none => .error (.configuration (.noRole role (o.marker role)))

/-- The parent and the child of an audience. -/
def parts (a : Audience) (o : CompilerSettings) : Except Error Parts := do
  let parent ← a.requireRole o .parent
  let child ← a.requireRole o .child
  if parent.label = child.label then throw (.configuration (.sameRoles parent.label))
  return { parent, child }

end Audience

/-- The name of the qualified parents within a query. -/
def CatalogObject.stageName (o : CatalogObject) : String :=
  "qualified_" ++ Text.lowerAscii (sanitize (o.name?.getD (lastPart o.table)))

end Targeting
