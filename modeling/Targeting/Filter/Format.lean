import Targeting.Error
import Targeting.Filter.Basic
import Targeting.Json.Record

/-!
# Filters as JSON

Filters are read in two ways. A specification handed in by a caller is read as a whole, and all its
problems are reported at once, each under its path. Filters inside a larger text are read with it,
and the first problem counts.

* `FilterSet.ofJson`, `FilterSet.ofText`: a specification with all its problems;
* `Read.filterSet`: filters inside a larger text;
* `FilterSet.toJson`: filters with their members in the order of their declaration.
-/

namespace Targeting

/-! ## Writing -/

mutual

/-- An operand as JSON. -/
def Operand.toJson : Operand → Json
  | .string s => .string s
  | .number n => .number n
  | .list items => .array (Operand.toJsons items)

/-- Operands as JSON. -/
def Operand.toJsons : List Operand → List Json
  | [] => []
  | v :: rest => v.toJson :: Operand.toJsons rest

end

/-- A filter as JSON. -/
def Filter.toJson (f : Filter) : Json :=
  .object ([("field", .string f.field), ("operator", .string f.operator),
    ("value", f.operand.toJson)] ++
    match f.connector with
    | some c => [("logicalOperator", .string c.keyword)]
    | none => [])

/-- The filters of a cohort as JSON. -/
def FilterSet.toJson (s : FilterSet) : Json :=
  .object [("companyFilters", .array (s.company.map Filter.toJson)),
    ("contactFilters", .array (s.contact.map Filter.toJson))]

/-! ## Reading -/

namespace Document

mutual

/-- Nothing is broken or unreadable, and the nesting is no deeper than there is room for. -/
def legible (room : Option Nat) : Document → Bool
  | .broken => false
  | .unreadable => false
  | .array items => room != some 0 && legibleItems (room.map (· - 1)) items
  | .object members => room != some 0 && legibleMembers (room.map (· - 1)) members
  | _ => true

/-- All items are legible. -/
def legibleItems (room : Option Nat) : List Document → Bool
  | [] => true
  | d :: rest => d.legible room && legibleItems room rest

/-- All members are legible and have keys. -/
def legibleMembers (room : Option Nat) : List (Option String × Document) → Bool
  | [] => true
  | (key, d) :: rest => key.isSome && d.legible room && legibleMembers room rest

end

end Document

mutual

/-- The operand of a document that has no problem of its own. -/
def Operand.ofDocument? : Document → Option Operand
  | .string s => some (.string s)
  | .number n => some (.number n)
  | .array items => (Operand.ofDocuments? items).map .list
  | _ => none

/-- The operands of documents. -/
def Operand.ofDocuments? : List Document → Option (List Operand)
  | [] => some []
  | d :: rest => do
    let v ← Operand.ofDocument? d
    let vs ← Operand.ofDocuments? rest
    return v :: vs

end

/-- An operand; a text leaves room only for so many levels of nesting. -/
def Read.operand (room : Option Nat) : Read Operand := fun d =>
  if d.legible room then
    match Operand.ofDocument? d with
    | some v => .ok v
    | none => .error (.noForm "FilterValue")
  else .error .malformed

/-- How a filter is read. -/
def Filter.record (origin : Origin) (room : Option Nat) : Record Filter where
  title := "Filter"
  blank := { field := "", operator := "", operand := .string "" }
  members :=
    [.required "field" Read.string fun v f => { f with field := v },
      .required "operator" Read.string fun v f => { f with operator := v },
      .required "value" (Read.operand room) fun v f => { f with operand := v },
      .defaulted "logicalOperator" (Read.optional (Read.choice origin Connector.byName))
        fun v f => { f with connector := v }]

/-- One filter. -/
def Read.filter (origin : Origin) (room : Option Nat) : Read Filter :=
  (Filter.record origin room).read origin

/-- How the filters of a cohort are read inside a larger text. -/
def FilterSet.record (origin : Origin) (room : Option Nat) : Record FilterSet where
  title := "CohortFilters"
  blank := {}
  members :=
    [.defaulted "companyFilters" (Read.list (Read.filter origin room))
        fun v s => { s with company := v },
      .defaulted "contactFilters" (Read.list (Read.filter origin room))
        fun v s => { s with contact := v }]

/-- The filters of a cohort inside a larger text. -/
def Read.filterSet (origin : Origin) (room : Option Nat) : Read FilterSet :=
  (FilterSet.record origin room).read origin

namespace FilterSet

/-- Violations by their paths. -/
abbrev Problems : Type := List (String × List Violation)

/-- The filters of a list from position `i` on, and what is wrong with the others. -/
def readItems (list : String) (i : Nat) : List Json → List Filter × Problems
  | [] => ([], [])
  | v :: rest =>
    let (filters, problems) := readItems list (i + 1) rest
    match (Read.filter .value none).ofJson v with
    | .ok f => (f :: filters, problems)
    | .error fault =>
      (filters, (itemPath list i, [Violation.simple fault.message "invalid_filter"]) :: problems)

/-- The filters of a list that may be absent, and what is wrong with it. -/
def readList (list : String) : Option Json → List Filter × Problems
  | none => ([], [])
  | some .null => ([], [])
  | some (.array items) => readItems list 0 items
  | some _ => ([], [(list, [Violation.simple "Expected an array." "invalid_type"])])

/-- The filters of a specification, or everything that is wrong with it. -/
def ofJson (v : Json) : Except Error FilterSet :=
  match v with
  | .object _ =>
    let (company, problems) := readList Role.parent.listName (v.get? Role.parent.listName)
    let (contact, more) := readList Role.child.listName (v.get? Role.child.listName)
    match problems ++ more with
    | [] => .ok { company, contact }
    | all => .error (.validation (.ofFields all))
  | _ =>
    .error (.validation
      (.simple "Filter specification must be a JSON object" "invalid_type"))

/-- The filters of the text of a specification. -/
def ofText (s : String) : Except Error FilterSet :=
  match Json.parse? s with
  | some v => ofJson v
  | none => .error (.validation (.simple "Malformed filter JSON: malformed JSON" "invalid_json"))

end FilterSet

/-- The operand that a text holds. -/
def Operand.ofText? (s : String) : Option Operand :=
  ((Read.operand (some Document.deepest)).ofText s).toOption

end Targeting
