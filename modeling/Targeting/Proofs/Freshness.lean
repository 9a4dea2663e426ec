import Mathlib.Data.List.Induction
import Targeting.Cohort.Basic
import Targeting.Proofs.Running
import Targeting.Proofs.Statements
import Targeting.Sample

/-!
# Counts that are good

The counts of a cohort are found, cannot be found, or are looked for without end, in any order and any
number of times. A cohort gives out counts only if they were found last of all that happened to it, and
then the ones that were found and only while they are good. What was found before a failure stays in the
cohort, but it is not given out.

* `CountsMissed`: how counts are not found; `Audience.outcome_runCounts`: what the query for counts comes to;
* `Cohort.Event`, `Cohort.after`: what happens to a cohort; `Event.found?`: what an event finds;
* `Cohort.stored`: the counts in a cohort; `Cohort.stored_apply`, `Cohort.active_apply_iff`: what one event
  makes of them; `Cohort.stored_after`, `Cohort.active_after_iff`: what many events make of them;
* `Cohort.SameRecord`: what no event changes;
* **`Cohort.faithful_after_create`**: whatever happens to a new cohort.
-/

namespace Targeting

open Calendar (Instant)

/-! ## The query for counts -/

/-- Counts are not found: their query cannot be compiled, it ends with an error, or it ends with rows that
hold no counts. -/
inductive CountsMissed (a : Audience) (w : Warehouse) (ctx : Context) (o : CompileOptions)
    (fs : FilterSet) (e : Error) : Prop
  | uncompiled (h : a.countsStatement fs (o.withDialect w.dialect) = .error e)
  | ended {s : Statement} (h : a.countsStatement fs (o.withDialect w.dialect) = .ok s)
      (hend : Ends w ctx .count s.toSent (.error e))
  | unreadable {s : Statement} {rows : List Row}
      (h : a.countsStatement fs (o.withDialect w.dialect) = .ok s)
      (hend : Ends w ctx .count s.toSent (.ok rows)) (hrows : countsOf s.sql rows = .error e)

namespace Audience

variable (a : Audience) (w : Warehouse) (ctx : Context) (o : CompileOptions) (fs : FilterSet)

/-- Counts are compiled, queried and read from the rows. -/
theorem outcome_runCounts : (a.runCounts w ctx o fs).outcome =
    a.countsStatement fs (o.withDialect w.dialect) >>= fun s =>
      (w.run ctx .count s.sql s.params).outcome >>= countsOf s.sql := by
  rw [runCounts]
  cases a.countsStatement fs (o.withDialect w.dialect) <;> rfl

theorem countsMissed_of_runCounts {e : Error} (h : (a.runCounts w ctx o fs).outcome = .error e) :
    CountsMissed a w ctx o fs e := by
  rw [outcome_runCounts] at h
  rcases bind_eq_error_iff.mp h with h | ⟨s, hs, h⟩
  · exact .uncompiled h
  have hend : Ends w ctx .count s.toSent (w.run ctx .count s.sql s.params).outcome :=
    w.ends_run .count s.sql s.params
  rcases bind_eq_error_iff.mp h with h | ⟨rows, hrows, h⟩
  · exact .ended hs (h ▸ hend)
  · exact .unreadable hs (hrows ▸ hend) h

/-- The error of a warehouse is the error of the query for counts, if nothing interrupts it. -/
theorem runCounts_of_reply {s : Statement} {e : Error}
    (hs : a.countsStatement fs (o.withDialect w.dialect) = .ok s) (hctx : ctx.cancelled = false)
    (hin : ctx.interruption? .count (w.answer ctx s.toSent).delay = none)
    (hreply : (w.answer ctx s.toSent).outcome = .error e) :
    (a.runCounts w ctx o fs).outcome = .error (e.inQuery .count s.sql) := by
  have hrun : (w.run ctx .count s.sql s.params).outcome = .error (e.inQuery .count s.sql) := by
    rw [w.outcome_run .count s.sql s.params hctx hin]
    exact congrArg (Except.mapError (Error.inQuery .count s.sql)) hreply
  rw [outcome_runCounts]
  exact bind_eq_error_iff.mpr (Or.inr ⟨s, hs, bind_eq_error_iff.mpr (Or.inl hrun)⟩)

end Audience

/-! ## Events -/

namespace Cohort

/-- What happens to a cohort: its counts are found or not found by others, they are looked for to the end, or
a search for them is given up after it has begun. -/
inductive Event
  | markedActive (counts : Counts) (t : Instant)
  | markedFailed (message : String)
  | refreshed (a : Audience) (w : Warehouse) (ctx : Context) (o : CompileOptions) (t : Instant)
  | abandoned

/-- The cohort after an event. -/
def apply (c : Cohort) : Event → Cohort
  | .markedActive counts t => c.markActive counts t
  | .markedFailed message => c.markFailed message
  | .refreshed a w ctx o t => (c.refresh a w ctx o t).2
  | .abandoned => c.markProcessing

/-- The cohort after some events. -/
def after (c : Cohort) (events : List Event) : Cohort := events.foldl apply c

/-- The counts that an event finds for filters, and when it finds them. -/
def Event.found? (fs : FilterSet) : Event → Option (Counts × Instant)
  | .markedActive counts t => some (counts, t)
  | .markedFailed _ => none
  | .refreshed a w ctx o t => (a.runCounts w ctx o fs).outcome.toOption.map fun counts => (counts, t)
  | .abandoned => none

/-- The counts that are stored in a cohort, and when they were found. -/
def stored (c : Cohort) : Option (Counts × Instant) := do
  let companies ← c.companies
  let people ← c.people
  let t ← c.refreshed
  return ({ companies, people }, t)

variable (c : Cohort) (events : List Event) (e : Event)

@[simp] theorem after_concat : c.after (events ++ [e]) = (c.after events).apply e := by
  rw [after, after, List.foldl_append]
  rfl

/-! ## Refreshing -/

section Refreshing

variable (a : Audience) (w : Warehouse) (ctx : Context) (o : CompileOptions) (now : Instant)

/-- A refresh comes to what the query for the counts comes to. -/
theorem refresh_fst : (c.refresh a w ctx o now).1 = a.runCounts w ctx o c.filters := by
  unfold refresh
  simp only [markProcessing]
  cases (a.runCounts w ctx o c.filters).outcome <;> rfl

variable {c a w ctx o now}

theorem refresh_snd_of_ok {counts : Counts}
    (h : (a.runCounts w ctx o c.filters).outcome = .ok counts) :
    (c.refresh a w ctx o now).2 = c.markActive counts now := by
  unfold refresh
  simp only [markProcessing, h]
  rfl

theorem refresh_snd_of_error {e : Error} (h : (a.runCounts w ctx o c.filters).outcome = .error e) :
    (c.refresh a w ctx o now).2 = c.markFailed e.message := by
  unfold refresh
  simp only [markProcessing, h]
  rfl

end Refreshing

/-! ## One event -/

/-- What holds of a cohort whose counts were just found, of one whose counts were just not found and of one
whose counts are looked for holds of a cohort after an event. -/
theorem apply_induction {motive : Option (Counts × Instant) → Cohort → Prop}
    (active : ∀ counts t, motive (some (counts, t)) (c.markActive counts t))
    (failed : ∀ message, motive none (c.markFailed message))
    (processing : motive none c.markProcessing) : motive (e.found? c.filters) (c.apply e) := by
  cases e with
  | markedActive counts t => exact active counts t
  | markedFailed message => exact failed message
  | abandoned => exact processing
  | refreshed a w ctx o t =>
    rw [Event.found?, apply]
    cases h : (a.runCounts w ctx o c.filters).outcome with
    | ok counts =>
      rw [refresh_snd_of_ok h]
      exact active counts t
    | error e =>
      rw [refresh_snd_of_error h]
      exact failed e.message

/-- An event stores what it finds, and leaves what is stored if it finds nothing. -/
theorem stored_apply : (c.apply e).stored = (e.found? c.filters).or c.stored :=
  c.apply_induction e (motive := fun found d => d.stored = found.or c.stored)
    (fun _ _ => rfl) (fun _ => rfl) rfl

/-- A cohort is active after an event that finds counts, and after no other one. -/
theorem active_apply_iff : (c.apply e).status = .active ↔ (e.found? c.filters).isSome :=
  c.apply_induction e (motive := fun found d => d.status = .active ↔ found.isSome)
    (fun _ _ => iff_of_true rfl rfl) (fun _ => iff_of_false nofun nofun) (iff_of_false nofun nofun)

/-- What a cohort says about its failures agrees with its status. -/
structure Sound (c : Cohort) : Prop where
  active : c.status = .active → c.stored.isSome ∧ c.failure = none
  failed : c.status = .failed → c.failure.isSome

theorem sound_apply : (c.apply e).Sound :=
  c.apply_induction e (motive := fun _ d => d.Sound)
    (fun _ _ => ⟨fun _ => ⟨rfl, rfl⟩, nofun⟩) (fun _ => ⟨nofun, fun _ => rfl⟩) ⟨nofun, nofun⟩

/-- Two cohorts are the same one, whatever was found for it. -/
structure SameRecord (c d : Cohort) : Prop where
  id : d.id = c.id
  name : d.name = c.name
  audience : d.audience = c.audience
  filters : d.filters = c.filters
  created : d.created = c.created

theorem SameRecord.trans {c d d' : Cohort} (h : c.SameRecord d) (h' : d.SameRecord d') :
    c.SameRecord d' where
  id := h'.id.trans h.id
  name := h'.name.trans h.name
  audience := h'.audience.trans h.audience
  filters := h'.filters.trans h.filters
  created := h'.created.trans h.created

theorem sameRecord_apply : c.SameRecord (c.apply e) :=
  c.apply_induction e (motive := fun _ d => c.SameRecord d)
    (fun _ _ => ⟨rfl, rfl, rfl, rfl, rfl⟩) (fun _ => ⟨rfl, rfl, rfl, rfl, rfl⟩) ⟨rfl, rfl, rfl, rfl, rfl⟩

/-! ## Many events -/

theorem sameRecord_after : c.SameRecord (c.after events) := by
  induction events using List.reverseRecOn with
  | nil => exact ⟨rfl, rfl, rfl, rfl, rfl⟩
  | append_singleton earlier e ih =>
    rw [after_concat]
    exact ih.trans (sameRecord_apply _ e)

/-- What is stored after some events was found last of all that they found. -/
theorem stored_after :
    (c.after events).stored = (events.filterMap (Event.found? c.filters)).getLast?.or c.stored := by
  -- From the right end: what the last event finds hides what was stored before it.
  induction events using List.reverseRecOn with
  | nil => rfl
  | append_singleton earlier e ih =>
    have hfilters : (c.after earlier).filters = c.filters := (c.sameRecord_after earlier).filters
    rw [after_concat, stored_apply, hfilters, ih, List.filterMap_append]
    cases h : e.found? c.filters with
    | none => simp [h]
    | some found => simp [h]

theorem sound_after (hc : c.Sound) : (c.after events).Sound := by
  rcases List.eq_nil_or_concat events with rfl | ⟨earlier, e, rfl⟩
  · exact hc
  · rw [List.concat_eq_append, after_concat]
    exact sound_apply _ e

/-- A cohort that was not active before is active with counts if they were found last of all that happened. -/
theorem active_after_iff (hc : c.status ≠ .active) {found : Counts × Instant} :
    (c.after events).status = .active ∧ (c.after events).stored = some found ↔
      ∃ e ∈ events.getLast?, e.found? c.filters = some found := by
  -- The last event alone sets the status, so no induction is needed.
  rcases List.eq_nil_or_concat events with rfl | ⟨earlier, e, rfl⟩
  · exact iff_of_false (fun h => hc h.1) fun ⟨e, he, _⟩ => Option.not_mem_none e he
  have hfilters : (c.after earlier).filters = c.filters := (c.sameRecord_after earlier).filters
  have hlast : (earlier ++ [e]).getLast? = some e := List.getLast?_concat
  rw [List.concat_eq_append, after_concat, active_apply_iff, stored_apply, hfilters, hlast]
  cases h : e.found? c.filters with
  | none => simp [h]
  | some found' => simp [h]

/-! ## What is given out -/

theorem stored_eq_some_iff {counts : Counts} {t : Instant} : c.stored = some (counts, t) ↔
    c.companies = some counts.companies ∧ c.people = some counts.people ∧ c.refreshed = some t := by
  obtain ⟨companies, people⟩ := counts
  cases hcompanies : c.companies <;> cases hpeople : c.people <;> cases hrefreshed : c.refreshed <;>
    simp [stored, hcompanies, hpeople, hrefreshed, and_assoc]

/-- Counts that were found at a time are good: they are not as old as a span, or the span is longer than any
age. -/
def Good (t now : Instant) (span : Duration) : Prop :=
  longestSpan.nanos < span.nanos ∨ now.since t < span.nanos

theorem countsAreFresh_iff {now : Instant} {span : Duration} : c.countsAreFresh now span = true ↔
    c.status = .active ∧ ∃ t, c.refreshed = some t ∧ Good t now span := by
  unfold countsAreFresh Good
  cases c.refreshed with
  | none => simp
  | some t => simp

/-- An active cohort gives out what is stored in it while it is good. -/
theorem cachedCounts_eq_some_iff {now : Instant} {span : Duration} {counts : Counts} :
    c.cachedCounts now span = some counts ↔
      ∃ t, (c.status = .active ∧ c.stored = some (counts, t)) ∧ Good t now span := by
  have hparts : c.cachedCounts now span = some counts ↔ c.countsAreFresh now span = true ∧
      c.companies = some counts.companies ∧ c.people = some counts.people := by
    obtain ⟨companies, people⟩ := counts
    unfold cachedCounts
    cases hcompanies : c.companies <;> cases hpeople : c.people <;> simp
  simp only [hparts, countsAreFresh_iff, stored_eq_some_iff]
  constructor
  · rintro ⟨⟨hactive, t, ht, hgood⟩, hcompanies, hpeople⟩
    exact ⟨t, ⟨hactive, hcompanies, hpeople, ht⟩, hgood⟩
  · rintro ⟨t, ⟨hactive, hcompanies, hpeople, ht⟩, hgood⟩
    exact ⟨⟨hactive, t, ht, hgood⟩, hcompanies, hpeople⟩

/-! ## The life of a cohort -/

/-- A refresh that fails leaves a cohort with the words of its error, and with the counts that it had. -/
structure Missed (c : Cohort) (e : Error) (d : Cohort) : Prop where
  status : d.status = .failed
  failure : d.failure = some e.message
  companies : d.companies = c.companies
  people : d.people = c.people
  refreshed : d.refreshed = c.refreshed

theorem missed_refresh {a : Audience} {w : Warehouse} {ctx : Context} {o : CompileOptions} {now : Instant}
    {e : Error} (h : (a.runCounts w ctx o c.filters).outcome = .error e) :
    c.Missed e (c.refresh a w ctx o now).2 := by
  rw [refresh_snd_of_error h]
  exact ⟨rfl, rfl, rfl, rfl, rfl⟩

/-- A cohort that was new is faithful to what has happened to it since. -/
structure Faithful (c : Cohort) (events : List Event) : Prop where
  /-- An active cohort has counts with their time, and no failure. -/
  active : (c.after events).status = .active →
    (c.after events).companies.isSome ∧ (c.after events).people.isSome ∧
      (c.after events).refreshed.isSome ∧ (c.after events).failure = none
  /-- A failed cohort has a failure. -/
  failed : (c.after events).status = .failed → (c.after events).failure.isSome
  /-- What is stored was found last of all that was found. -/
  stored : (c.after events).stored = (events.filterMap (Event.found? c.filters)).getLast?
  /-- What is given out was found last of all that happened, and is good. -/
  given : ∀ now span counts, (c.after events).cachedCounts now span = some counts ↔
    ∃ e ∈ events.getLast?, ∃ t, e.found? c.filters = some (counts, t) ∧ Good t now span
  /-- A refresh that fails tells its caller why, keeps the words and leaves what is stored. -/
  missed : ∀ a w ctx o now e, ((c.after events).refresh a w ctx o now).1.outcome = .error e →
    CountsMissed a w ctx o c.filters e ∧
      (c.after events).Missed e ((c.after events).refresh a w ctx o now).2
  /-- A refresh fails with the error of the warehouse. -/
  replied : ∀ a w ctx o now s e, a.countsStatement c.filters (o.withDialect w.dialect) = .ok s →
    ctx.cancelled = false → ctx.interruption? .count (w.answer ctx s.toSent).delay = none →
    (w.answer ctx s.toSent).outcome = .error e →
    ((c.after events).refresh a w ctx o now).1.outcome = .error (e.inQuery .count s.sql)
  unchanged : c.SameRecord (c.after events)

/-- **Whatever happens to a new cohort**, it gives out counts only while they are good, and none that were
found before a failure. -/
theorem faithful_after_create (id : Identity) (name audience : String) (filters : FilterSet)
    (created : Instant) (events : List Event) :
    (create id name audience filters created).Faithful events := by
  have hsound : (create id name audience filters created).Sound := ⟨nofun, nofun⟩
  generalize hc : create id name audience filters created = c at hsound ⊢
  have hprocessing : c.status ≠ .active := by
    rw [← hc]
    exact nofun
  have hempty : c.stored = none := by
    rw [← hc]
    rfl
  have hfilters := (c.sameRecord_after events).filters
  constructor
  case active =>
    intro hactive
    obtain ⟨hstored, hfailure⟩ := (c.sound_after events hsound).active hactive
    obtain ⟨⟨counts, t⟩, hfound⟩ := Option.isSome_iff_exists.mp hstored
    obtain ⟨hcompanies, hpeople, hrefreshed⟩ := (stored_eq_some_iff _).mp hfound
    simp [hcompanies, hpeople, hrefreshed, hfailure]
  case failed => exact (c.sound_after events hsound).failed
  case stored => rw [stored_after, hempty, Option.or_none]
  case given =>
    intro now span counts
    rw [cachedCounts_eq_some_iff]
    constructor
    · rintro ⟨t, hserved, hgood⟩
      obtain ⟨e, he, hfound⟩ := (c.active_after_iff events hprocessing).mp hserved
      exact ⟨e, he, t, hfound, hgood⟩
    · rintro ⟨e, he, t, hfound, hgood⟩
      exact ⟨t, (c.active_after_iff events hprocessing).mpr ⟨e, he, hfound⟩, hgood⟩
  case missed =>
    intro a w ctx o now e he
    rw [refresh_fst] at he
    exact ⟨hfilters ▸ a.countsMissed_of_runCounts w ctx o _ he, missed_refresh _ he⟩
  case replied =>
    intro a w ctx o now s e hs hctx hin hreply
    rw [refresh_fst, hfilters]
    exact a.runCounts_of_reply w ctx o _ hs hctx hin hreply
  case unchanged => exact c.sameRecord_after events

/-- The directors of the sample, as a cohort. -/
def directors : Cohort := create .nil "Directors" "sample" Sample.directors ⟨0, 0⟩

/-- A warehouse that is closed. -/
def closed : Warehouse where
  dialect := .postgres
  answer := fun _ _ => { delay := ⟨0⟩, outcome := .error (.warehouse "closed") }

/-- Counts are found, and a minute later they cannot be found any more. -/
def outage : List Event :=
  [.markedActive ⟨12, 34⟩ ⟨0, 0⟩, .refreshed Sample.audience closed { connection := "main" } {} ⟨60, 0⟩]

/-- After the outage the counts are still there. They are not given out, and the next refresh fails too. -/
theorem directors_faithful_after_outage :
    (directors.after outage).stored = some (⟨12, 34⟩, ⟨0, 0⟩) ∧
      (directors.after outage).cachedCounts ⟨61, 0⟩ (.ofParts 3600 0) = none ∧
      ∃ sql, ((directors.after outage).refresh Sample.audience closed { connection := "main" } {}
        ⟨120, 0⟩).1.outcome = .error (.execution "count" sql "Warehouse error: closed") := by
  have h : directors.Faithful outage :=
    faithful_after_create .nil "Directors" "sample" Sample.directors ⟨0, 0⟩ outage
  refine ⟨h.stored.trans rfl, Option.eq_none_iff_forall_ne_some.mpr fun counts hgiven => ?_,
    _, h.replied _ _ _ _ _ _ (.warehouse "closed") rfl rfl rfl rfl⟩
  obtain ⟨e, he, t, hfound, _⟩ := (h.given _ _ _).mp hgiven
  cases he
  cases hfound

end Cohort

end Targeting
