import Targeting.Cohort.Basic
import Targeting.Filter.Format

/-!
# Cohorts as JSON

* `Cohort.toJson`, `Cohort.ofText`.
-/

namespace Targeting

open Calendar (Instant)

namespace Cohort

/-- A cohort as JSON. -/
def toJson (c : Cohort) : Json :=
  .object ([("id", Json.string c.id.text), ("name", .string c.name),
    ("audienceId", .string c.audience), ("filters", c.filters.toJson),
    ("companyCount", .ofOption .ofInt64 c.companies), ("peopleCount", .ofOption .ofInt64 c.people),
    ("status", .string c.status.name)] ++
    (match c.failure with
      | some message => [("errorMessage", Json.string message)]
      | none => []) ++
    [("countsRefreshedAt", .ofOption (fun t => .string t.text) c.refreshed),
      ("createdAt", .string c.created.text)])

/-- An identifier. -/
def readIdentity : Read Identity
  | .string s => match Identity.ofText? s with
    | some i => .ok i
    | none => .error (.unparsable "UUID")
  | d => .error (d.mismatch "a formatted UUID string")

/-- A point of time. -/
def readInstant : Read Instant
  | .string s => match Instant.ofText? s with
    | some t => .ok t
    | none => .error (.unparsable "time")
  | d => .error (d.mismatch "an RFC 3339 formatted date and time string")

/-- The nesting that a text leaves for the operand of a filter. -/
def operandRoom : Nat := Document.deepest - 4

/-- How a cohort is read. -/
def record : Record Cohort where
  title := "Cohort"
  blank := create .nil "" "" {} ⟨0, 0⟩
  members :=
    [.required "id" readIdentity fun v c => { c with id := v },
      .required "name" Read.string fun v c => { c with name := v },
      .required "audienceId" Read.string fun v c => { c with audience := v },
      .required "filters" (Read.filterSet .text (some operandRoom))
        fun v c => { c with filters := v },
      .defaulted "companyCount" (Read.optional Read.int64) fun v c => { c with companies := v },
      .defaulted "peopleCount" (Read.optional Read.int64) fun v c => { c with people := v },
      .required "status" (Read.choice .text Status.byName) fun v c => { c with status := v },
      .defaulted "errorMessage" (Read.optional Read.string) fun v c => { c with failure := v },
      .defaulted "countsRefreshedAt" (Read.optional readInstant)
        fun v c => { c with refreshed := v },
      .required "createdAt" readInstant fun v c => { c with created := v }]

/-- The cohort of a text. -/
def ofText (s : String) : Except Fault Cohort := (record.read .text).ofText s

end Cohort

end Targeting
