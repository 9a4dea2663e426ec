import Targeting.Audience.Basic

/-!
# A sample audience

Companies and their contacts, with filters for directors at software companies of two countries.
-/

namespace Targeting.Sample

/-- A field with a category. -/
def firmographic (name : String) : Field := { name, category := some "Firmographics" }

/-- The companies. -/
def companies : CatalogObject where
  name? := some "companies"
  displayName? := some "Companies"
  table := "companies"
  primaryKey := "company_id"
  fields :=
    [firmographic "company_name",
      { firmographic "country" with listsDistinct := true },
      { firmographic "industry" with listsDistinct := true },
      { firmographic "employee_count" with
        dataType := .number
        allowedOperators :=
          [Operator.equals, .notEquals, .greaterThan, .lessThan].map Operator.name }]

/-- The contacts of the companies. -/
def contacts : CatalogObject where
  name? := some "contacts"
  displayName? := some "Contacts"
  table := "contacts"
  fields :=
    [{ name := "first_name" }, { name := "job_title" },
      { name := "seniority", listsDistinct := true, displayable := false }]

/-- Companies and contacts, joined by the company. -/
def audience : Audience where
  objects :=
    [{ object := companies, label := "c", role := some .parent },
      { object := contacts, label := "p", role := some .child }]
  relationships :=
    [{ first := some "c", second := some "p", condition := "c.company_id = p.company_id" }]
  joinKey := some "company_id"

/-- A filter with a text as operand. -/
def filter (field : String) (op : Operator) (s : String) : Filter :=
  { field, operator := op.name, operand := .string s }

/-- Directors at software companies. -/
def directors : FilterSet where
  company :=
    [{ filter "country" .equals "USA" with connector := some .or },
      { filter "country" .equals "Canada" with connector := some .or },
      filter "industry" .equals "Software"]
  contact := [filter "job_title" .contains "Director"]

end Targeting.Sample
