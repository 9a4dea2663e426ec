import Targeting.Audience.Parts
import Targeting.Audience.Validation
import Targeting.Filter.Compilation
import Targeting.Query.Basic
import Targeting.Writer

/-!
# Counts and previews

Counts and previews first qualify the parents that meet the company filters, by their join keys, and
then look at the children that belong to them and meet the contact filters. Both are built from the
same parts.

* `Stage`, `Audience.stage`: the parent, the child, the join key and both conditions;
* `Stage.qualified`, `Stage.members`: the qualified parents, and the objects that belong to them;
* `Audience.counts`, `Audience.previews`: the queries;
* `Audience.countsStatement`, `Audience.companyStatement`, `Audience.contactStatement`: the queries as
  they are written.
-/

namespace Targeting

/-- What counts and previews are built from. -/
structure Stage where
  parts : Parts
  key : String
  parentCondition : Condition
  childCondition : Condition
  warnings : List Warning

/-- The join key of an audience. -/
def Audience.key (a : Audience) (o : CompilerSettings) : Except Error String :=
  let key := a.joinKey.getD o.defaultJoinKey
  if isIdentifier key then .ok key else .error (.configuration (.invalidJoinKey key))

/-- The stage of an audience with filters. -/
def Audience.stage (a : Audience) (o : CompilerSettings) (fs : FilterSet) : Except Error Stage := do
  a.validate
  let parts ← a.parts o
  let key ← a.key o
  let (parentCondition, warnings) ← parts.parent.condition o Role.parent.listName fs.company
  let (childCondition, more) ← parts.child.condition o Role.child.listName fs.contact
  return { parts, key, parentCondition, childCondition, warnings := warnings ++ more }

namespace Stage

variable (s : Stage)

/-- The name of the qualified parents. -/
def name : String := s.parts.parent.object.stageName

/-- The front of the clause for the qualified parents: their join keys, under their name. -/
def qualifiedHead : String :=
  let p := s.parts.parent
  "WITH " ++ s.name ++ " AS (SELECT DISTINCT " ++ p.qualify s.key ++ " FROM " ++ p.object.table ++
    " " ++ p.label

/-- The clause that keeps the join keys of the qualified parents under their name. -/
def qualified : Sql := .text s.qualifiedHead :: (s.parentCondition.whereClause ++ [.text ")"])

/-- The rows of an object that belong to a qualified parent. -/
def belonging (p : Placement) : String :=
  "FROM " ++ p.object.table ++ " " ++ p.label ++ " INNER JOIN " ++ s.name ++ " ON " ++
    p.qualify s.key ++ " = " ++ s.name ++ "." ++ s.key

/-- The children that belong to a qualified parent and meet their own condition. -/
def members : Sql := .text (s.belonging s.parts.child) :: s.childCondition.whereClause

/-- What counts select: the qualified parents, and the children by their primary key. -/
def countsHead : String :=
  " SELECT (SELECT COUNT(DISTINCT " ++ s.key ++ ") FROM " ++ s.name ++
    ") AS company_count, (SELECT COUNT(DISTINCT " ++
    s.parts.child.qualify s.parts.child.object.primaryKey ++ ") "

/-- The query that counts qualified parents and their children. -/
def counts : Query where
  sql := s.qualified ++ .text s.countsHead :: (s.members ++ [.text ") AS people_count"])
  warnings := s.warnings

end Stage

/-- The columns of an object in a preview, each named after its field. -/
def Placement.previewItems (p : Placement) : List String :=
  p.object.displayable.map fun f => p.column f ++ " AS " ++ sanitize f.name

/-- What a preview of an object selects. -/
def Placement.previewHead (p : Placement) : String :=
  " SELECT " ++ selectList (p.qualify "*") p.previewItems ++ " "

namespace Stage

variable (s : Stage)

/-- The query that shows some rows of an object. -/
def preview (p : Placement) (rows : Sql) (limit : Nat) : Query where
  sql := s.qualified ++ .text p.previewHead :: (rows ++ [.text (" LIMIT " ++ toString limit)])
  warnings := s.warnings

/-- The query that shows some qualified parents. -/
def companyPreview (limit : Nat) : Query :=
  s.preview s.parts.parent [.text (s.belonging s.parts.parent)] limit

/-- The query that shows some children of qualified parents. -/
def contactPreview (limit : Nat) : Query := s.preview s.parts.child s.members limit

/-! ## As they are written -/

variable (r : Writer)

/-- The clause for the qualified parents, as it is written. -/
def writeQualified : Sql.Written :=
  (r.whereClause s.parentCondition (Sql.Written.nothing.push s.qualifiedHead)).push ")"

/-- The counts as they are written. -/
def countsStatement : Statement :=
  let members := ((s.writeQualified r).push s.countsHead).push (s.belonging s.parts.child)
  let filtered := r.whereClause s.childCondition members
  (filtered.push ") AS people_count").statement s.warnings

/-- A preview of an object as it is written, with a condition of its own or without one. -/
def previewStatement (p : Placement) (own : Option Condition) (limit : Nat) : Statement :=
  let rows := ((s.writeQualified r).push p.previewHead).push (s.belonging p)
  let filtered :=
    match own with
    | some c => r.whereClause c rows
    | none => rows
  (filtered.push (" LIMIT " ++ toString limit)).statement s.warnings

end Stage

/-- The queries of a preview, each of which shows at most `limit` rows. -/
structure Previews where
  company : Query
  contact : Query
  limit : Nat

/-- The statements of a preview, each of which shows at most `limit` rows. -/
structure PreviewStatements where
  company : Statement
  contact : Statement
  limit : Nat

/-- The number of rows in a preview: what is asked for, but never more than the cap. -/
def CompilerSettings.previewRows (o : CompilerSettings) (requested : Option Nat) : Nat :=
  match requested with
  | some n => min n o.previewLimit.toNat
  | none => o.previewLimit.toNat

namespace Audience

variable (a : Audience)

/-- The counts of an audience. -/
def counts (o : CompilerSettings) (fs : FilterSet) : Except Error Query :=
  (a.stage o fs).map Stage.counts

/-- The previews of an audience. -/
def previews (o : CompilerSettings) (fs : FilterSet) (requested : Option Nat) :
    Except Error Previews := do
  let s ← a.stage o fs
  let limit := o.previewRows requested
  return { company := s.companyPreview limit, contact := s.contactPreview limit, limit }

/-- The counts as options ask for them. -/
def countsStatement (fs : FilterSet) (o : CompileOptions) : Except Error Statement :=
  (a.stage o.compiler fs).map fun s => s.countsStatement o.writer

/-- Both sides of a preview as options ask for them. -/
def bothPreviews (fs : FilterSet) (requested : Option Nat) (o : CompileOptions) :
    Except Error PreviewStatements := do
  let s ← a.stage o.compiler fs
  let limit := o.compiler.previewRows requested
  return {
    company := s.previewStatement o.writer s.parts.parent none limit
    contact := s.previewStatement o.writer s.parts.child (some s.childCondition) limit
    limit }

/-- The company side of a preview as options ask for it. -/
def companyStatement (fs : FilterSet) (requested : Option Nat) (o : CompileOptions) :
    Except Error Statement :=
  (a.bothPreviews fs requested o).map PreviewStatements.company

/-- The contact side of a preview as options ask for it. -/
def contactStatement (fs : FilterSet) (requested : Option Nat) (o : CompileOptions) :
    Except Error Statement :=
  (a.bothPreviews fs requested o).map PreviewStatements.contact

end Audience

end Targeting
