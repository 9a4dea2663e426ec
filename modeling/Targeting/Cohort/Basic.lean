import Targeting.Calendar.Instant
import Targeting.Cohort.Identity
import Targeting.Execution.Answer

/-!
# Cohorts

A cohort is a set of filters that was saved under a name, with the counts that were found for it. The
counts are good for a while after they were found, as long as the last attempt to find them succeeded.

* `Status`, `Cohort`, `Cohort.create`;
* `Cohort.markProcessing`, `Cohort.markActive`, `Cohort.markFailed`: what an attempt leaves behind, while
  it lasts and when it is over;
* `Cohort.countsAreFresh`, `Cohort.cachedCounts`: the counts while they are good;
* `Cohort.refresh`: an attempt.
-/

namespace Targeting

open Calendar (Instant)

/-- Whether counts are being looked for, were found, or could not be found. -/
inductive Status
  | processing
  | active
  | failed
  deriving DecidableEq

/-- The name of a status. -/
def Status.name : Status → String
  | .processing => "processing"
  | .active => "active"
  | .failed => "error"

/-- The statuses by name. -/
def Status.byName : List (String × Status) :=
  [Status.processing, .active, .failed].map fun s => (s.name, s)

/-- Filters saved under a name, with what was found for them. -/
structure Cohort where
  id : Identity
  name : String
  audience : String
  filters : FilterSet
  companies : Option Int64 := none
  people : Option Int64 := none
  status : Status := .processing
  failure : Option String := none
  refreshed : Option Instant := none
  created : Instant

namespace Cohort

/-- A new cohort. -/
def create (id : Identity) (name audience : String) (filters : FilterSet) (now : Instant) : Cohort :=
  { id, name, audience, filters, created := now }

/-- The cohort while its counts are being looked for. -/
def markProcessing (c : Cohort) : Cohort := { c with status := .processing }

/-- The cohort after its counts were found. -/
def markActive (c : Cohort) (counts : Counts) (now : Instant) : Cohort :=
  { c with
    companies := some counts.companies
    people := some counts.people
    refreshed := some now
    status := .active
    failure := none }

/-- The cohort after its counts could not be found. -/
def markFailed (c : Cohort) (message : String) : Cohort :=
  { c with status := .failed, failure := some message }

/-- The longest span for which counts can go out of date: as many milliseconds as 64 bits with sign count. -/
def longestSpan : Duration := .ofMillis greatestInt64.toNat

/-- The counts are not as old as the given span. -/
def countsAreFresh (c : Cohort) (now : Instant) (span : Duration) : Bool :=
  c.status = .active &&
    match c.refreshed with
    | none => false
    | some t => longestSpan.nanos < span.nanos || now.since t < span.nanos

/-- The counts, while they are good. -/
def cachedCounts (c : Cohort) (now : Instant) (span : Duration) : Option Counts :=
  if c.countsAreFresh now span then do
    let companies ← c.companies
    let people ← c.people
    return { companies, people }
  else none

/-- Looks for the counts of a cohort: what comes of it, and the cohort after it. -/
def refresh (c : Cohort) (a : Audience) (w : Warehouse) (ctx : Context) (o : CompileOptions)
    (now : Instant) : Run Counts × Cohort :=
  let c := c.markProcessing
  let r := a.runCounts w ctx o c.filters
  match r.outcome with
  | .ok counts => (r, c.markActive counts now)
  | .error e => (r, c.markFailed e.message)

end Cohort

end Targeting
