import Targeting.Execution.Run
import Targeting.Query.Basic
import Targeting.Proofs.Outcome

/-!
# How queries end

A query on a warehouse that replies after some time ends in one of four ways, whatever it replies and however
long that takes; and it has been sent, once, unless the caller had cancelled before. Two queries side by side
come to what they come to one after the other, in the order in which they are over.

* `Statement.toSent`: what a warehouse gets of a statement;
* `Ends`, **`Warehouse.ends_run`**: the ways in which a query ends;
* `Context.interruption?`: what happens before the reply; `Reply.take_nextTurn`, **`Reply.ending_eq`**: what the
  turns of a call come to;
* `Warehouse.run_of_cancelled`, **`Warehouse.run_eq`**, `Warehouse.sent_run`: a query and what is sent for it;
* `Order`, `joined`: two calls one after the other; **`Run.outcome_beside`**: two calls side by side;
  `Run.sent_beside`: what has been sent for them.
-/

namespace Targeting

/-! ## One query -/

/-- What a warehouse gets of a statement. -/
def Statement.toSent (s : Statement) : Sent := ⟨s.sql, s.params⟩

/-- A query that is meant for a warehouse ends: its caller cancels, its deadline passes, or the warehouse
replies with rows or with an error. -/
inductive Ends (w : Warehouse) (ctx : Context) (mode : Mode) (s : Sent) :
    Except Error (List Row) → Prop
  | cancelled (h : ctx.cancelled = true ∨
      ∃ t, ctx.cancelAfter = some t ∧ t.nanos ≤ (w.answer ctx s).delay.nanos) :
      Ends w ctx mode s (.error (.cancelled mode.name))
  | timedOut {t : Duration} (h : ctx.deadline = some t)
      (hlate : t.nanos < (w.answer ctx s).delay.nanos) :
      Ends w ctx mode s (.error (.timeout mode.name t))
  | answered {rows : List Row} (h : (w.answer ctx s).outcome = .ok rows) : Ends w ctx mode s (.ok rows)
  | failed {e : Error} (h : (w.answer ctx s).outcome = .error e) :
      Ends w ctx mode s (.error (e.inQuery mode s.sql))

namespace Context

variable (ctx : Context) (mode : Mode) (delay : Duration)

/-- The interruption of a call that would be answered after a delay, and its time: the deadline if it is over
at once, or whatever happens to the call before the answer. -/
def interruption? : Option (Error × Duration) :=
  if delay = ⟨0⟩ then none
  else if ctx.deadline = some ⟨0⟩ then some (.timeout mode.name ⟨0⟩, ⟨0⟩)
  else if ctx.cancelAfter = some (ctx.nextTime delay) then
    some (.cancelled mode.name, ctx.nextTime delay)
  else if delay = ctx.nextTime delay then none
  else some (.timeout mode.name (ctx.nextTime delay), ctx.nextTime delay)

theorem earlier_le_left (s : Duration) (t : Option Duration) : (earlier s t).nanos ≤ s.nanos := by
  unfold earlier
  split
  · split <;> omega
  · exact Nat.le_refl _

theorem earlier_le_right (s t : Duration) : (earlier s (some t)).nanos ≤ t.nanos := by
  rw [earlier]
  split <;> omega

/-- Nothing happens before what happens first. -/
theorem nextTime_le : (ctx.nextTime delay).nanos ≤ delay.nanos ∧
    (∀ t, ctx.deadline = some t → (ctx.nextTime delay).nanos ≤ t.nanos) ∧
      ∀ c, ctx.cancelAfter = some c → (ctx.nextTime delay).nanos ≤ c.nanos := by
  have hfirst := earlier_le_left (earlier delay ctx.deadline) ctx.cancelAfter
  refine ⟨Nat.le_trans hfirst (earlier_le_left _ _), fun t ht => ?_, fun c hc => ?_⟩
  · rw [ht] at hfirst
    rw [nextTime, ht]
    exact Nat.le_trans hfirst (earlier_le_right _ _)
  · rw [nextTime, hc]
    exact earlier_le_right _ _

/-- The caller cancels before the next turn exactly if that is what happens first. -/
theorem cancelledBefore_nextTurn :
    (ctx.nextTurn delay).cancelledBefore = decide (ctx.cancelAfter = some (ctx.nextTime delay)) := by
  rw [nextTurn]
  cases hc : ctx.cancelAfter with
  | none => rfl
  | some c =>
    have hle := (ctx.nextTime_le delay).2.2 c hc
    simp only [Option.any_some, Option.some.injEq, decide_eq_decide]
    exact ⟨fun h => congrArg Duration.mk (Nat.le_antisymm h hle), fun h => h ▸ Nat.le_refl _⟩

variable {ctx mode delay}

/-- A call is interrupted by its caller or by its deadline. -/
theorem interruption?_cases {e : Error} {t : Duration} (h : ctx.interruption? mode delay = some (e, t)) :
    (ctx.cancelAfter = some t ∧ t.nanos ≤ delay.nanos ∧ e = .cancelled mode.name) ∨
      (ctx.deadline = some t ∧ t.nanos < delay.nanos ∧ e = .timeout mode.name t) := by
  obtain ⟨hdelay, _, _⟩ := ctx.nextTime_le delay
  have hlt : ∀ {u : Duration}, u.nanos ≤ delay.nanos → delay ≠ u → u.nanos < delay.nanos :=
    fun hle hne => Nat.lt_of_le_of_ne hle fun heq => hne (congrArg Duration.mk heq.symm)
  unfold interruption? at h
  split at h
  · cases h
  next hnow =>
  split at h
  · next hdeadline =>
    cases h
    exact Or.inr ⟨hdeadline, hlt (Nat.zero_le _) hnow, rfl⟩
  split at h
  · next hcancel =>
    cases h
    exact Or.inl ⟨hcancel, hdelay, rfl⟩
  next hcancel =>
  split at h
  · cases h
  · next hne =>
    cases h
    -- It is neither the answer nor the caller that comes first.
    have hdeadline := ((ctx.nextTime_eq delay).resolve_left (Ne.symm hne)).resolve_right hcancel
    exact Or.inr ⟨hdeadline, hlt hdelay hne, rfl⟩

end Context

/-! ## Turns -/

namespace Reply

variable (r : Reply) {ctx : Context} (mode : Mode) (sql : String)

theorem ending_of_execute {e : Ending}
    (h : r.work.execute () ctx mode sql (ctx.turns r.delay) = some e) : r.ending ctx mode sql = e :=
  Option.get_of_mem _ h

/-- What the first turn ends a call with. -/
theorem ending_of_first {e : Ending}
    (he : (ctx.call ()).take r.work ctx.deadline mode { start := ⟨0⟩, stop := ⟨0⟩ } = .over e) :
    r.ending ctx mode sql = e.inQuery mode sql := by
  refine r.ending_of_execute mode sql ?_
  rw [Work.execute, Context.turns, Call.takeAll, he]
  rfl

/-- What the next turn ends a call with that the first one does not end. -/
theorem ending_of_next (h : ctx.cancelled = false) (hdelay : r.delay ≠ ⟨0⟩)
    (hdeadline : ctx.deadline ≠ some ⟨0⟩) {e : Ending}
    (he : Call.take r.work ctx.deadline mode { state := (), cancelled := false, begun := true }
      (ctx.nextTurn r.delay) = .over e) : r.ending ctx mode sql = e.inQuery mode sql := by
  have hpositive : ∀ {u : Duration}, u ≠ ⟨0⟩ → ¬ u.nanos ≤ 0 := fun hu hle =>
    hu (congrArg Duration.mk (Nat.le_zero.mp hle))
  have hlate : Call.passed ctx.deadline ⟨0⟩ = none := by
    refine Option.filter_eq_none_iff.mpr fun t ht => ?_
    simpa using hpositive fun hzero => hdeadline (hzero ▸ ht)
  have hpending : (ctx.call ()).take r.work ctx.deadline mode { start := ⟨0⟩, stop := ⟨0⟩ } =
      .pending { state := (), cancelled := false, begun := true } :=
    Call.take_of_nothing (by rw [Context.call, h]; rfl) (if_neg (hpositive hdelay)) hlate
  refine r.ending_of_execute mode sql ?_
  rw [Work.execute, Context.turns, Call.takeAll, hpending]
  simp only [Call.takeAll, he, Option.map_some]

/-- The next turn ends a call: its caller has cancelled, the reply is there, or the deadline passes. -/
theorem take_nextTurn :
    Call.take r.work ctx.deadline mode { state := (), cancelled := false, begun := true }
        (ctx.nextTurn r.delay) =
      .over
        { outcome :=
            if ctx.cancelAfter = some (ctx.nextTime r.delay) then .error (.cancelled mode.name)
            else if r.delay = ctx.nextTime r.delay then r.outcome
            else .error (.timeout mode.name (ctx.nextTime r.delay))
          time := ctx.nextTime r.delay, begun := true } := by
  have hbefore := ctx.cancelledBefore_nextTurn r.delay
  by_cases hcancel : ctx.cancelAfter = some (ctx.nextTime r.delay)
  · rw [if_pos hcancel]
    exact Call.take_of_cancelled (hbefore.trans (decide_eq_true hcancel))
  have hquiet : (false || (ctx.nextTurn r.delay).cancelledBefore) = false :=
    hbefore.trans (decide_eq_false hcancel)
  rw [if_neg hcancel]
  by_cases hfirst : r.delay = ctx.nextTime r.delay
  · rw [if_pos hfirst]
    exact Call.take_of_answer hquiet (if_pos (Nat.le_of_eq (congrArg Duration.nanos hfirst)))
  · have hnone : (r.work () (ctx.nextTurn r.delay)).answer = none :=
      if_neg fun hle => hfirst (congrArg Duration.mk (Nat.le_antisymm hle (ctx.nextTime_le r.delay).1))
    have hpassed : Call.passed ctx.deadline (ctx.nextTime r.delay) = some (ctx.nextTime r.delay) := by
      rw [((ctx.nextTime_eq r.delay).resolve_left (Ne.symm hfirst)).resolve_right hcancel]
      exact Option.filter_eq_some_iff.mpr ⟨rfl, decide_eq_true (Nat.le_refl _)⟩
    rw [if_neg hfirst]
    exact Call.take_of_passed hquiet hnone hpassed

/-- **How a call ends** that its caller had not cancelled before: with an interruption, or with the reply. -/
theorem ending_eq (h : ctx.cancelled = false) : r.ending ctx mode sql =
    match ctx.interruption? mode r.delay with
    | some (e, t) => { outcome := .error e, time := t, begun := true }
    | none =>
      { outcome := r.outcome.mapError (Error.inQuery mode sql), time := r.delay, begun := true } := by
  have hcall : ((ctx.call ()).cancelled || false) = false := by
    rw [Context.call, h]
    rfl
  unfold Context.interruption?
  by_cases hnow : r.delay = ⟨0⟩
  · have hanswer : (r.work () { start := ⟨0⟩, stop := ⟨0⟩ }).answer = some r.outcome :=
      if_pos (Nat.le_of_eq (congrArg Duration.nanos hnow))
    rw [if_pos hnow, r.ending_of_first mode sql (Call.take_of_answer hcall hanswer), hnow]
    rfl
  rw [if_neg hnow]
  by_cases hdeadline : ctx.deadline = some ⟨0⟩
  · have hnone : (r.work () { start := ⟨0⟩, stop := ⟨0⟩ }).answer = none :=
      if_neg fun hle => hnow (congrArg Duration.mk (Nat.le_zero.mp hle))
    have hpassed : Call.passed ctx.deadline ⟨0⟩ = some ⟨0⟩ := by
      rw [hdeadline]
      rfl
    rw [if_pos hdeadline, r.ending_of_first mode sql (Call.take_of_passed hcall hnone hpassed)]
    rfl
  rw [if_neg hdeadline, r.ending_of_next mode sql h hnow hdeadline (r.take_nextTurn mode)]
  by_cases hcancel : ctx.cancelAfter = some (ctx.nextTime r.delay)
  · simp only [if_pos hcancel]
    rfl
  by_cases hfirst : r.delay = ctx.nextTime r.delay
  · simp only [if_neg hcancel, if_pos hfirst]
    exact congrArg (Ending.mk _ · _) hfirst.symm
  · simp only [if_neg hcancel, if_neg hfirst]
    rfl

end Reply

/-! ## Queries -/

namespace Warehouse

variable (w : Warehouse) {ctx : Context} (mode : Mode) (sql : String) (params : List Value)

theorem run_of_cancelled (h : ctx.cancelled = true) :
    w.run ctx mode sql params = .failed (.cancelled mode.name) := by
  have hcall : ((ctx.call ()).cancelled || false) = true := by
    rw [Context.call, h]
    rfl
  rw [run, Reply.ending_of_first _ mode sql (Call.take_of_cancelled hcall)]
  rfl

/-- **A query that is not cancelled before** is sent once. It ends with an interruption, or with the reply. -/
theorem run_eq (h : ctx.cancelled = false) : w.run ctx mode sql params =
    match ctx.interruption? mode (w.answer ctx ⟨sql, params⟩).delay with
    | some (e, t) => { outcome := .error e, finished := t, sent := [⟨sql, params⟩] }
    | none =>
      { outcome := (w.answer ctx ⟨sql, params⟩).outcome.mapError (Error.inQuery mode sql)
        finished := (w.answer ctx ⟨sql, params⟩).delay, sent := [⟨sql, params⟩] } := by
  rw [run, Reply.ending_eq _ mode sql h]
  cases ctx.interruption? mode (w.answer ctx ⟨sql, params⟩).delay <;> rfl

theorem sent_run (h : ctx.cancelled = false) : (w.run ctx mode sql params).sent = [⟨sql, params⟩] := by
  rw [w.run_eq mode sql params h]
  split <;> rfl

/-- A query that is not interrupted ends with the reply. -/
theorem outcome_run (h : ctx.cancelled = false)
    (hin : ctx.interruption? mode (w.answer ctx ⟨sql, params⟩).delay = none) :
    (w.run ctx mode sql params).outcome =
      (w.answer ctx ⟨sql, params⟩).outcome.mapError (Error.inQuery mode sql) := by
  rw [w.run_eq mode sql params h, hin]

/-- **A query ends** in one of these ways. -/
theorem ends_run : Ends w ctx mode ⟨sql, params⟩ (w.run ctx mode sql params).outcome := by
  cases hcancelled : ctx.cancelled with
  | true =>
    rw [w.run_of_cancelled mode sql params hcancelled]
    exact .cancelled (Or.inl hcancelled)
  | false =>
    cases hin : ctx.interruption? mode (w.answer ctx ⟨sql, params⟩).delay with
    | some i =>
      obtain ⟨e, t⟩ := i
      have hrun : (w.run ctx mode sql params).outcome = .error e := by
        rw [w.run_eq mode sql params hcancelled, hin]
      rw [hrun]
      rcases Context.interruption?_cases hin with ⟨h, hle, he⟩ | ⟨h, hlt, he⟩
      · exact he ▸ .cancelled (Or.inr ⟨_, h, hle⟩)
      · exact he ▸ .timedOut h hlt
    | none =>
      rw [w.outcome_run mode sql params hcancelled hin]
      cases hreply : (w.answer ctx ⟨sql, params⟩).outcome with
      | ok rows => exact .answered hreply
      | error e => exact .failed hreply

end Warehouse

/-! ## Two calls -/

/-- The order in which two calls are over. -/
inductive Order
  | straight
  | reversed
  deriving DecidableEq

variable {α β : Type}

/-- What two calls come to that are over in an order: a failure of the earlier one counts, whatever
becomes of the later one. -/
def joined (order : Order) (x : Except Error α) (y : Except Error β) : Except Error (α × β) :=
  match order with
  | .straight => x.bind fun a => y.map fun b => (a, b)
  | .reversed => y.bind fun b => x.map fun a => (a, b)

theorem joined_eq_ok_iff {order : Order} {x : Except Error α} {y : Except Error β} {a : α} {b : β} :
    joined order x y = .ok (a, b) ↔ x = .ok a ∧ y = .ok b := by
  cases order <;> cases x <;> cases y <;> simp [joined, Except.bind, Except.map]

theorem joined_eq_error {order : Order} {x : Except Error α} {y : Except Error β} {e : Error}
    (h : joined order x y = .error e) : x = .error e ∨ y = .error e := by
  cases order <;> cases x <;> cases y <;> simp_all [joined, Except.bind, Except.map]

namespace Run

variable (a : Run α) (b : Run β)

/-- The order in which two calls are over that were made at the same time. -/
def order : Order := if b.finished.nanos < a.finished.nanos then .reversed else .straight

/-- **Calls side by side come to what they come to one after the other**, in the order in which they are
over. -/
theorem outcome_beside : (a.beside b).outcome = joined (a.order b) a.outcome b.outcome := by
  unfold beside order
  by_cases hlt : b.finished.nanos < a.finished.nanos
  · simp only [if_pos hlt]
    cases a.outcome <;> cases b.outcome <;> rfl
  · simp only [if_neg hlt]
    cases a.outcome <;> cases b.outcome <;> rfl

/-- The second call is made too, unless the first one fails. -/
theorem sent_beside : (a.beside b).sent = a.sent ++ b.sent ∨
    (a.beside b).sent = a.sent ∧ ∃ e, (a.beside b).outcome = .error e := by
  have hovertaking : ∀ e, (a.overtaking b e).sent = a.sent ++ b.sent ∨
      (a.overtaking b e).sent = a.sent ∧ ∃ e', (a.overtaking b e).outcome = .error e' := by
    intro e
    unfold overtaking
    by_cases hnow : a.finished.nanos = 0
    · exact Or.inr ⟨if_pos hnow, e, rfl⟩
    · exact Or.inl (if_neg hnow)
  unfold beside
  cases a.outcome with
  | ok x => cases b.outcome <;> exact Or.inl rfl
  | error e =>
    cases b.outcome with
    | ok y => exact hovertaking e
    | error f =>
      simp only
      split
      · exact Or.inl rfl
      · exact hovertaking e

end Run

end Targeting
