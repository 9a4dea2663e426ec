import Targeting.Audience.Validation
import Targeting.Json.Record

/-!
# Audiences as JSON

An audience is written with all members that have a value, and read back member by member; members
that are left out take their defaults.

* `Audience.toJson`, `Audience.ofText`, `Audience.ofValidText`.
-/

namespace Targeting

/-- A member that is written only if it has a value. -/
def presentMember (key : String) : Option String → List (String × Json)
  | some s => [(key, .string s)]
  | none => []

/-- A field as JSON. -/
def Field.toJson (f : Field) : Json :=
  .object ([("name", Json.string f.name)] ++ presentMember "column" f.column ++
    [("dataType", .string f.dataType.name)] ++ presentMember "category" f.category ++
    [("isFilterable", .bool f.filterable), ("isDisplayable", .bool f.displayable),
      ("allowedOperators", .ofStrings f.allowedOperators),
      ("hasDistinctValues", .bool f.listsDistinct)])

/-- An object as JSON. -/
def CatalogObject.toJson (o : CatalogObject) : Json :=
  .object (presentMember "name" o.name? ++ presentMember "displayName" o.displayName? ++
    [("table", Json.string o.table), ("primaryKey", .string o.primaryKey),
      ("fields", .array (o.fields.map Field.toJson))])

/-- A placed object as JSON. -/
def Placement.toJson (p : Placement) : Json :=
  .object ([("object", p.object.toJson), ("alias", .string p.label)] ++
    presentMember "role" (p.role.map Role.name))

/-- A relationship as JSON. -/
def Relationship.toJson (r : Relationship) : Json :=
  .object (presentMember "fromObjectAlias" r.first ++ presentMember "toObjectAlias" r.second ++
    [("joinCondition", .string r.condition), ("joinType", .string r.kind.name)])

/-- An audience as JSON. -/
def Audience.toJson (a : Audience) : Json :=
  .object ([("objects", Json.array (a.objects.map Placement.toJson)),
    ("relationships", .array (a.relationships.map Relationship.toJson))] ++
    presentMember "joinKey" a.joinKey)

/-- How a field is read. -/
def Field.record (origin : Origin) : Record Field where
  title := "Field"
  blank := { name := "" }
  members :=
    [.required "name" Read.string fun v f => { f with name := v },
      .defaulted "column" (Read.optional Read.string) fun v f => { f with column := v },
      .defaulted "dataType" (Read.choice origin DataType.byName)
        fun v f => { f with dataType := v },
      .defaulted "category" (Read.optional Read.string) fun v f => { f with category := v },
      .defaulted "isFilterable" Read.bool fun v f => { f with filterable := v },
      .defaulted "isDisplayable" Read.bool fun v f => { f with displayable := v },
      .defaulted "allowedOperators" (Read.list Read.string)
        fun v f => { f with allowedOperators := v },
      .defaulted "hasDistinctValues" Read.bool fun v f => { f with listsDistinct := v }]

/-- How an object is read. -/
def CatalogObject.record (origin : Origin) : Record CatalogObject where
  title := "AudienceObject"
  blank := { table := "" }
  members :=
    [.defaulted "name" (Read.optional Read.string) fun v o => { o with name? := v },
      .defaulted "displayName" (Read.optional Read.string) fun v o => { o with displayName? := v },
      (Member.required "table" Read.string fun v o => { o with table := v }).orNamed
        "physicalTable",
      .defaulted "primaryKey" Read.string fun v o => { o with primaryKey := v },
      .defaulted "fields" (Read.list ((Field.record origin).read origin))
        fun v o => { o with fields := v }]

/-- How a placed object is read. -/
def Placement.record (origin : Origin) : Record Placement where
  title := "ConfiguredObject"
  blank := { object := { table := "" }, label := "" }
  members :=
    [.required "object" ((CatalogObject.record origin).read origin)
        fun v p => { p with object := v },
      .required "alias" Read.string fun v p => { p with label := v },
      .defaulted "role" (Read.optional (Read.choice origin Role.byName))
        fun v p => { p with role := v }]

/-- How a relationship is read. -/
def Relationship.record (origin : Origin) : Record Relationship where
  title := "Relationship"
  blank := { condition := "" }
  members :=
    [.defaulted "fromObjectAlias" (Read.optional Read.string) fun v r => { r with first := v },
      .defaulted "toObjectAlias" (Read.optional Read.string) fun v r => { r with second := v },
      .required "joinCondition" Read.string fun v r => { r with condition := v },
      .defaulted "joinType" (Read.choice origin JoinKind.byName) fun v r => { r with kind := v }]

/-- How an audience is read. -/
def Audience.record (origin : Origin) : Record Audience where
  title := "AudienceConfig"
  blank := {}
  members :=
    [.required "objects" (Read.list ((Placement.record origin).read origin))
        fun v a => { a with objects := v },
      .defaulted "relationships" (Read.list ((Relationship.record origin).read origin))
        fun v a => { a with relationships := v },
      .defaulted "joinKey" (Read.optional Read.string) fun v a => { a with joinKey := v }]

namespace Audience

/-- The audience of a text, which need not be valid. -/
def ofText (s : String) : Except Error Audience :=
  (((record .text).read .text).ofText s).mapError fun fault =>
    .configuration (.unreadableAudience fault)

/-- The valid audience of a text. -/
def ofValidText (s : String) : Except Error Audience := do
  let a ← ofText s
  a.validate
  return a

end Audience

end Targeting
