import Targeting.Filter.Basic

/-!
# Catalogs

An object is a warehouse table with the fields that filters and listings may use. A field has a name
of its own and a column, which is the name unless another one is given.

* `DataType`, `Field`, `Field.columnName`, `Field.allows`;
* `CatalogObject`, `CatalogObject.field?`, `CatalogObject.displayable`.
-/

namespace Targeting

/-- What a field holds. -/
inductive DataType
  | string
  | number
  deriving DecidableEq

/-- The name of a data type. -/
def DataType.name : DataType → String
  | .string => "string"
  | .number => "number"

/-- The data types by name. -/
def DataType.byName : List (String × DataType) :=
  [DataType.string, .number].map fun t => (t.name, t)

/-- A field of a catalog. -/
structure Field where
  name : String
  column : Option String := none
  dataType : DataType := .string
  category : Option String := none
  filterable : Bool := true
  displayable : Bool := true
  allowedOperators : List String := []
  listsDistinct : Bool := false
  deriving DecidableEq

namespace Field

/-- The column of a field. -/
def columnName (f : Field) : String := f.column.getD f.name

/-- A field without restrictions allows every operator, otherwise those it names in any ASCII case. -/
def allows (f : Field) (op : Operator) : Bool :=
  f.allowedOperators.isEmpty || f.allowedOperators.any fun name => Text.sameLetters name op.name

end Field

/-- A warehouse table with its fields. -/
structure CatalogObject where
  name? : Option String := none
  displayName? : Option String := none
  table : String
  primaryKey : String := "id"
  fields : List Field := []
  deriving DecidableEq

namespace CatalogObject

/-- The name of an object; without one, its table. -/
def name (o : CatalogObject) : String := o.name?.getD o.table

/-- The name for people; without one, the name. -/
def displayName (o : CatalogObject) : String := o.displayName?.getD o.name

/-- The first field with a name. -/
def field? (o : CatalogObject) (name : String) : Option Field := o.fields.find? (·.name = name)

/-- The fields that may be shown. -/
def displayable (o : CatalogObject) : List Field := o.fields.filter (·.displayable)

end CatalogObject

end Targeting
