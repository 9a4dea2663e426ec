import Targeting.Execution.Call

/-!
# Running queries

A warehouse that replies after some time gets a turn as the call starts and one when something happens: the
reply is there, the deadline passes or the caller cancels. Two queries may run side by side, and then the
first failure ends both.

* `Run`: the outcome, when it was known, and what was sent;
* `Run.beside`: two queries side by side;
* `Context.turns`, `Reply.work`: the turns of a call, and the work of a warehouse that replies after some time;
* `Warehouse.run`: a query run on a warehouse.
-/

namespace Targeting

/-- What came of a call: the outcome, when it was known, and what was sent. -/
structure Run (α : Type) where
  outcome : Except Error α
  finished : Duration
  sent : List Sent

namespace Run

variable {α β : Type}

/-- A call that fails before anything is sent. -/
def failed (e : Error) : Run α := { outcome := .error e, finished := ⟨0⟩, sent := [] }

/-- The same call with an outcome that is computed from the first one. -/
def andThen (r : Run α) (f : α → Except Error β) : Run β :=
  { r with outcome := r.outcome.bind f }

/-- A call after something that may fail first. -/
def after (x : Except Error α) (f : α → Run β) : Run β :=
  match x with
  | .ok a => f a
  | .error e => failed e

/-- The later of two times. -/
def later (s t : Duration) : Duration := if s.nanos ≤ t.nanos then t else s

/-- Two calls side by side of which the first fails before the second one does. -/
def overtaking (a : Run α) (b : Run β) (e : Error) : Run (α × β) :=
  { outcome := .error e, finished := a.finished,
    sent := if a.finished.nanos = 0 then a.sent else a.sent ++ b.sent }

/-- Two calls side by side, of which the second is made only if the first does not fail at once. The first
failure in time counts, and that of the first call if both fail together. -/
def beside (a : Run α) (b : Run β) : Run (α × β) :=
  match a.outcome, b.outcome with
  | .ok x, .ok y =>
    { outcome := .ok (x, y), finished := later a.finished b.finished, sent := a.sent ++ b.sent }
  | .ok _, .error e => { outcome := .error e, finished := b.finished, sent := a.sent ++ b.sent }
  | .error e, .ok _ => a.overtaking b e
  | .error e, .error f =>
    if b.finished.nanos < a.finished.nanos then
      { outcome := .error f, finished := b.finished, sent := a.sent ++ b.sent }
    else a.overtaking b e

end Run

namespace Context

/-- The earlier one of a time and of another one, if there is another one. -/
def earlier (s : Duration) : Option Duration → Duration
  | some t => if t.nanos < s.nanos then t else s
  | none => s

/-- The earliest time at which something happens to a call: the reply after a delay, the deadline, or that
its caller cancels. -/
def nextTime (ctx : Context) (delay : Duration) : Duration :=
  earlier (earlier delay ctx.deadline) ctx.cancelAfter

/-- The turn at which something happens to a call that is answered after a delay. -/
def nextTurn (ctx : Context) (delay : Duration) : Turn :=
  let time := ctx.nextTime delay
  { cancelledBefore := ctx.cancelAfter.any fun t => t.nanos ≤ time.nanos, start := time, stop := time }

/-- The turns of a call that is answered after a delay: one at its start, and the next one. -/
def turns (ctx : Context) (delay : Duration) : List Turn :=
  [{ start := ⟨0⟩, stop := ⟨0⟩ }, ctx.nextTurn delay]

/-- The context as a call that is over at some time leaves it. -/
def atEnd (ctx : Context) (finished : Duration) : Context :=
  { ctx with cancelled := ctx.cancelled || ctx.cancelAfter.any fun t => t.nanos ≤ finished.nanos }

theorem earlier_eq (s : Duration) (t : Option Duration) : earlier s t = s ∨ t = some (earlier s t) := by
  cases t with
  | none => exact Or.inl rfl
  | some t =>
    rw [earlier]
    split
    · exact Or.inr rfl
    · exact Or.inl rfl

/-- What happens first happens at the time of the reply, of the deadline, or of the cancellation. -/
theorem nextTime_eq (ctx : Context) (delay : Duration) : ctx.nextTime delay = delay ∨
    ctx.deadline = some (ctx.nextTime delay) ∨ ctx.cancelAfter = some (ctx.nextTime delay) := by
  rw [nextTime]
  rcases earlier_eq (earlier delay ctx.deadline) ctx.cancelAfter with h | h
  · rw [h]
    exact (earlier_eq delay ctx.deadline).imp_right Or.inl
  · exact Or.inr (Or.inr h)

end Context

namespace Reply

variable (r : Reply) (ctx : Context) (mode : Mode) (sql : String)

/-- The work of a warehouse that replies after a delay and does nothing else. -/
def work : Work Unit := fun _ t =>
  { next := (), answer := if r.delay.nanos ≤ t.start.nanos then some r.outcome else none }

/-- When something happens to a call, it is over. -/
theorem exists_over (c : Call Unit) :
    ∃ e, c.take r.work ctx.deadline mode (ctx.nextTurn r.delay) = .over e := by
  cases hcancelled : c.cancelled || (ctx.nextTurn r.delay).cancelledBefore with
  | true => exact ⟨_, Call.take_of_cancelled hcancelled⟩
  | false =>
    cases hanswer : (r.work c.state (ctx.nextTurn r.delay)).answer with
    | some x => exact ⟨_, Call.take_of_answer hcancelled hanswer⟩
    | none =>
      rcases ctx.nextTime_eq r.delay with h | h | h
      · simp [work, Context.nextTurn, h] at hanswer
      · have hpassed : Call.passed ctx.deadline (ctx.nextTurn r.delay).stop =
            some (ctx.nextTime r.delay) := by
          simp [Call.passed, Context.nextTurn, h]
        exact ⟨_, Call.take_of_passed hcancelled hanswer hpassed⟩
      · simp [Context.nextTurn, h] at hcancelled

theorem isSome_execute : (r.work.execute () ctx mode sql (ctx.turns r.delay)).isSome := by
  rw [Work.execute, Option.isSome_map, Context.turns, Call.takeAll]
  split
  · rfl
  · next c _ =>
    obtain ⟨e, he⟩ := r.exists_over ctx mode c
    simp only [Call.takeAll, he, Option.isSome_some]

/-- How a query with a reply after a delay ends. -/
def ending : Ending :=
  (r.work.execute () ctx mode sql (ctx.turns r.delay)).get (r.isSome_execute ctx mode sql)

end Reply

/-- A query run on a warehouse. It is sent as soon as the warehouse begins with its work. -/
def Warehouse.run (w : Warehouse) (ctx : Context) (mode : Mode) (sql : String)
    (params : List Value) : Run (List Row) :=
  let sent : Sent := { sql, params }
  let ending := (w.answer ctx sent).ending ctx mode sql
  { outcome := ending.outcome, finished := ending.time, sent := if ending.begun then [sent] else [] }

end Targeting
