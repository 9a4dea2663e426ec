/-!
# Roles

Counts and previews are staged: first the parents (companies) are qualified, then the children
(contacts) that belong to them. One object of an audience plays each part.
-/

namespace Targeting

/-- The part of an object in staged queries. -/
inductive Role
  | parent
  | child
  deriving DecidableEq

namespace Role

/-- The name of a role. -/
def name : Role → String
  | parent => "parent"
  | child => "child"

/-- The name of a role at the start of a sentence. -/
def title : Role → String
  | parent => "Parent"
  | child => "Child"

/-- The roles by name. -/
def byName : List (String × Role) := [parent, child].map fun r => (r.name, r)

/-- The name of the filter list of a role. -/
def listName : Role → String
  | parent => "companyFilters"
  | child => "contactFilters"

end Role

end Targeting
