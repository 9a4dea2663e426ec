import Targeting.Warehouse.Basic

/-!
# Calls

A call of a warehouse goes on in turns, until one of them ends it. In each turn its caller is looked for
first: once the context is cancelled the call is over. Then the warehouse goes on with its work, and
answers or does not; meanwhile the context may be cancelled, by the warehouse itself too. Only if there is
no answer the deadline is looked at. So an answer counts in the turn in which it comes, even if the context
has been cancelled in the same turn before it or the deadline has passed.

* `Mode`, `Error.inQuery`: what a query is run for, and what the errors of a warehouse are to it;
* `Turn`, `Work`: the circumstances of a turn, and what a warehouse does in one;
* `Call`, `Call.take`, `Call.takeAll`: a call under way, and what one turn and several turns make of it;
* `Work.execute`: what a query comes to.
-/

namespace Targeting

/-! ## Queries -/

/-- What a query is run for. -/
inductive Mode
  | listing
  | count
  | companyPreview
  | contactPreview
  | distinctValues
  deriving DecidableEq

/-- The name of a mode. -/
def Mode.name : Mode → String
  | listing => "listing"
  | count => "count"
  | companyPreview => "company_preview"
  | contactPreview => "contact_preview"
  | distinctValues => "distinct_values"

/-- The modes by name. -/
def Mode.byName : List (String × Mode) :=
  [listing, count, companyPreview, contactPreview, distinctValues].map fun m => (m.name, m)

/-- An error of a warehouse as the error of a query: interruptions and problems of the caller stay as they
are, all others are failures of the query. -/
def Error.inQuery (mode : Mode) (sql : String) : Error → Error
  | .configuration p => .configuration p
  | .validation v => .validation v
  | .timeout m t => .timeout m t
  | .cancelled m => .cancelled m
  | e => .execution mode.name sql e.message

/-! ## Turns -/

/-- The circumstances of a turn. Times are counted from the start of the call. -/
structure Turn where
  /-- The context is cancelled between the turn before and this one. -/
  cancelledBefore : Bool := false
  /-- The time at which the warehouse goes on with its work. -/
  start : Duration
  /-- The context is cancelled while the warehouse is at work. -/
  cancelledMeanwhile : Bool := false
  /-- The time of the timer when the deadline is looked at. -/
  stop : Duration

/-- What a warehouse does in a turn: how far its work is then, whether it cancels the context, and its
answer if it has one. -/
structure Progress (σ : Type) where
  next : σ
  cancels : Bool := false
  answer : Option (Except Error (List Row)) := none

/-- The work of a warehouse on a statement, from turn to turn. -/
abbrev Work (σ : Type) : Type := σ → Turn → Progress σ

/-- A call under way: how far the work is, whether the context is cancelled, and whether the warehouse has
begun. -/
structure Call (σ : Type) where
  state : σ
  cancelled : Bool
  begun : Bool := false

/-- How a call ends, and at what time. -/
structure Ending where
  outcome : Except Error (List Row)
  time : Duration
  begun : Bool

/-- What a turn makes of a call. -/
inductive Call.Taken (σ : Type)
  | pending (c : Call σ)
  | over (e : Ending)

namespace Call

variable {σ : Type}

/-- The deadline, if it has passed at some time. -/
def passed (deadline : Option Duration) (time : Duration) : Option Duration :=
  deadline.filter fun t => t.nanos ≤ time.nanos

/-- One turn of a call. -/
def take (work : Work σ) (deadline : Option Duration) (mode : Mode) (c : Call σ) (t : Turn) :
    Taken σ :=
  if c.cancelled || t.cancelledBefore then
    .over { outcome := .error (.cancelled mode.name), time := t.stop, begun := c.begun }
  else
    let p := work c.state t
    match p.answer, passed deadline t.stop with
    | some x, _ => .over { outcome := x, time := t.stop, begun := true }
    | none, some d =>
      .over { outcome := .error (.timeout mode.name d), time := t.stop, begun := true }
    | none, none =>
      .pending { state := p.next, cancelled := p.cancels || t.cancelledMeanwhile, begun := true }

section

variable {work : Work σ} {deadline : Option Duration} {mode : Mode} {c : Call σ} {t : Turn}

theorem take_of_cancelled (h : (c.cancelled || t.cancelledBefore) = true) :
    c.take work deadline mode t =
      .over { outcome := .error (.cancelled mode.name), time := t.stop, begun := c.begun } := by
  rw [take, if_pos h]

variable (h : (c.cancelled || t.cancelledBefore) = false)
include h

theorem take_of_answer {x : Except Error (List Row)} (hx : (work c.state t).answer = some x) :
    c.take work deadline mode t = .over { outcome := x, time := t.stop, begun := true } := by
  rw [take, if_neg (Bool.eq_false_iff.mp h)]
  simp only [hx]

theorem take_of_passed {d : Duration} (hx : (work c.state t).answer = none)
    (hd : passed deadline t.stop = some d) : c.take work deadline mode t =
      .over { outcome := .error (.timeout mode.name d), time := t.stop, begun := true } := by
  rw [take, if_neg (Bool.eq_false_iff.mp h)]
  simp only [hx, hd]

theorem take_of_nothing (hx : (work c.state t).answer = none) (hd : passed deadline t.stop = none) :
    c.take work deadline mode t =
      .pending { state := (work c.state t).next,
                 cancelled := (work c.state t).cancels || t.cancelledMeanwhile, begun := true } := by
  rw [take, if_neg (Bool.eq_false_iff.mp h)]
  simp only [hx, hd]

end

/-- Turns of a call one after the other; there is no ending as long as it goes on. -/
def takeAll (work : Work σ) (deadline : Option Duration) (mode : Mode) :
    Call σ → List Turn → Option Ending
  | _, [] => none
  | c, t :: rest =>
    match c.take work deadline mode t with
    | .over e => some e
    | .pending d => takeAll work deadline mode d rest

end Call

/-- The ending with its error as an error of a query. -/
def Ending.inQuery (mode : Mode) (sql : String) (e : Ending) : Ending :=
  { e with outcome := e.outcome.mapError (Error.inQuery mode sql) }

/-- A call that is made under a context. -/
def Context.call {σ : Type} (ctx : Context) (start : σ) : Call σ :=
  { state := start, cancelled := ctx.cancelled }

/-- What a query comes to in some turns, if it is over by then. -/
def Work.execute {σ : Type} (work : Work σ) (start : σ) (ctx : Context) (mode : Mode) (sql : String)
    (turns : List Turn) : Option Ending :=
  ((ctx.call start).takeAll work ctx.deadline mode turns).map (Ending.inQuery mode sql)

end Targeting
