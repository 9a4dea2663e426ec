import Targeting.Execution.Run
import Targeting.Proofs.Outcome

/-!
# What a call comes to

A call of a warehouse goes on in turns, and the first turn that does not leave it pending ends it. In each turn
three things are looked for, one after the other: whether the context has been cancelled, whether the
warehouse has an answer, and whether the deadline has passed. Whatever the call ends with is sorted once:
rows, interruptions and problems of the caller stay as they are, and all other errors become failures of the
query.

* `Error.Kept`, `Reports`: what becomes of an answer, `reports_iff`;
* `Moment`, `Work.moments`: what happens in the turns of a call;
* `Context.CancelledBy`: whether the context has been cancelled by then; `Moment.Concludes`, `Moment.Quiet`: what
  a moment ends a call with, and one that leaves it pending;
* `Call.take_cases`: one turn; `Call.takeAll_eq_some_iff`, `Call.takeAll_eq_none_iff`: several turns;
* **`Work.execute_concludes`**: every warehouse, and every course of its turns; `answers_overtake`: answers that
  come after the deadline, and after the context has been cancelled;
* `Warehouse.concludes_run`: a warehouse that replies after some time.
-/

namespace Targeting

/-! ## Answers -/

/-- The errors that a query ends with as they are: interruptions and problems of the caller. -/
inductive Error.Kept : Error → Prop
  | timeout (mode : String) (t : Duration) : Kept (.timeout mode t)
  | cancelled (mode : String) : Kept (.cancelled mode)
  | configuration (problem : ConfigurationProblem) : Kept (.configuration problem)
  | validation (violation : Violation) : Kept (.validation violation)

theorem Error.inQuery_of_kept {e : Error} (h : e.Kept) (mode : Mode) (sql : String) :
    e.inQuery mode sql = e := by
  cases h <;> rfl

theorem Error.inQuery_of_not_kept {e : Error} (h : ¬ e.Kept) (mode : Mode) (sql : String) :
    e.inQuery mode sql = .execution mode.name sql e.message := by
  cases e with
  | timeout mode t => exact absurd (.timeout mode t) h
  | cancelled mode => exact absurd (.cancelled mode) h
  | configuration problem => exact absurd (.configuration problem) h
  | validation violation => exact absurd (.validation violation) h
  | _ => rfl

theorem Error.interrupted_inQuery (e : Error) (mode : Mode) (sql : String) :
    (e.inQuery mode sql).interrupted = e.interrupted := by
  cases e <;> rfl

/-- What a query for `mode` reports of an answer: rows and some errors as they are, other errors as failures of
this query, with its text and with theirs. -/
inductive Reports (mode : Mode) (sql : String) :
    Except Error (List Row) → Except Error (List Row) → Prop
  | rows (rows : List Row) : Reports mode sql (.ok rows) (.ok rows)
  | kept {e : Error} (h : e.Kept) : Reports mode sql (.error e) (.error e)
  | failed {e : Error} (h : ¬ e.Kept) :
      Reports mode sql (.error e) (.error (.execution mode.name sql e.message))

theorem reports_iff {mode : Mode} {sql : String} {x y : Except Error (List Row)} :
    Reports mode sql x y ↔ y = x.mapError (Error.inQuery mode sql) := by
  constructor
  · intro h
    cases h with
    | rows rows => rfl
    | kept h => exact congrArg Except.error (Error.inQuery_of_kept h mode sql).symm
    | failed h => exact congrArg Except.error (Error.inQuery_of_not_kept h mode sql).symm
  · rintro rfl
    cases x with
    | ok rows => exact .rows rows
    | error e =>
      show Reports mode sql (.error e) (.error (e.inQuery mode sql))
      by_cases h : e.Kept
      · rw [Error.inQuery_of_kept h]
        exact .kept h
      · rw [Error.inQuery_of_not_kept h]
        exact .failed h

/-- A query ends with an interruption. -/
def Interrupted (x : Except Error (List Row)) : Prop := ∃ e, x = .error e ∧ e.interrupted = true

theorem interrupted_error_iff {e : Error} : Interrupted (.error e) ↔ e.interrupted = true := by
  simp [Interrupted]

theorem Reports.interrupted_iff {mode : Mode} {sql : String} {x y : Except Error (List Row)}
    (h : Reports mode sql x y) : Interrupted y ↔ Interrupted x := by
  obtain rfl := reports_iff.mp h
  cases x with
  | ok rows => exact ⟨nofun, nofun⟩
  | error e =>
    show Interrupted (.error (e.inQuery mode sql)) ↔ _
    rw [interrupted_error_iff, interrupted_error_iff, Error.interrupted_inQuery]

/-! ## Moments -/

/-- What happens in a turn: its circumstances, whether the warehouse cancels the context, and its answer. -/
structure Moment where
  turn : Turn
  cancels : Bool
  answer : Option (Except Error (List Row))

variable {σ : Type}

/-- What happens in a turn in which a warehouse goes on with its work. -/
def Work.moment (work : Work σ) (s : σ) (t : Turn) : Moment where
  turn := t
  cancels := (work s t).cancels
  answer := (work s t).answer

/-- What happens in turns, one after the other. -/
def Work.moments (work : Work σ) : σ → List Turn → List Moment
  | _, [] => []
  | s, t :: rest => work.moment s t :: work.moments (work s t).next rest

/-- The context is cancelled in a moment, by the warehouse or by others. -/
def Moment.Cancels (m : Moment) : Prop :=
  m.turn.cancelledBefore = true ∨ m.cancels = true ∨ m.turn.cancelledMeanwhile = true

/-- The context has been cancelled when it is looked at in a moment: before the call, in one of the moments
before, or just before this one. -/
def Context.CancelledBy (ctx : Context) (before : List Moment) (m : Moment) : Prop :=
  ctx.cancelled = true ∨ (∃ n ∈ before, n.Cancels) ∨ m.turn.cancelledBefore = true

namespace Moment

variable (m : Moment) (deadline : Option Duration) (mode : Mode) (sql : String) (cancelled : Prop)

/-- What a moment ends a query with, by whether the context has been cancelled. If so, the answer does not
count; otherwise the deadline does not count if there is an answer. -/
inductive Concludes : Except Error (List Row) → Prop
  | withdrawn (h : cancelled) : Concludes (.error (.cancelled mode.name))
  | answered (h : ¬ cancelled) {x y : Except Error (List Row)} (hanswer : m.answer = some x)
      (hreport : Reports mode sql x y) : Concludes y
  | expired (h : ¬ cancelled) (hanswer : m.answer = none) {t : Duration} (ht : deadline = some t)
      (hlate : t.nanos ≤ m.turn.stop.nanos) : Concludes (.error (.timeout mode.name t))

/-- What interrupts a query in a moment: its context has been cancelled, its deadline has passed without an
answer, or the warehouse answers with an interruption. -/
def Interrupts : Prop :=
  cancelled ∨ (m.answer = none ∧ ∃ t, deadline = some t ∧ t.nanos ≤ m.turn.stop.nanos) ∨
    ∃ e, m.answer = some (.error e) ∧ e.interrupted = true

/-- A moment leaves a query pending: nothing is found in it. -/
structure Quiet : Prop where
  kept : ¬ cancelled
  unanswered : m.answer = none
  inTime : ∀ t, deadline = some t → m.turn.stop.nanos < t.nanos

variable {m deadline mode sql cancelled} {x y : Except Error (List Row)}

theorem Concludes.unique (hx : m.Concludes deadline mode sql cancelled x)
    (hy : m.Concludes deadline mode sql cancelled y) : x = y := by
  cases hx with
  | withdrawn h =>
    cases hy with
    | withdrawn _ => rfl
    | answered hn => exact absurd h hn
    | expired hn => exact absurd h hn
  | answered h hanswer hreport =>
    cases hy with
    | withdrawn hc => exact absurd hc h
    | answered _ hanswer' hreport' =>
      obtain rfl := Option.some.inj (hanswer.symm.trans hanswer')
      exact (reports_iff.mp hreport).trans (reports_iff.mp hreport').symm
    | expired _ hnone => cases hanswer.symm.trans hnone
  | expired h hnone ht =>
    cases hy with
    | withdrawn hc => exact absurd hc h
    | answered _ hanswer => cases hanswer.symm.trans hnone
    | expired _ _ ht' =>
      obtain rfl := Option.some.inj (ht.symm.trans ht')
      rfl

theorem Concludes.not_quiet (hx : m.Concludes deadline mode sql cancelled x) :
    ¬ m.Quiet deadline cancelled := by
  intro hquiet
  cases hx with
  | withdrawn h => exact hquiet.kept h
  | answered _ hanswer => cases hanswer.symm.trans hquiet.unanswered
  | expired _ _ ht hlate => exact absurd (hquiet.inTime _ ht) (Nat.not_lt.mpr hlate)

/-- A query ends with an interruption exactly if something interrupts it in its last moment. -/
theorem Concludes.interrupted_iff (hx : m.Concludes deadline mode sql cancelled x) :
    Interrupted x ↔ m.Interrupts deadline cancelled := by
  cases hx with
  | withdrawn h => exact ⟨fun _ => Or.inl h, fun _ => ⟨_, rfl, rfl⟩⟩
  | answered h hanswer hreport =>
    rw [hreport.interrupted_iff, Interrupts, hanswer]
    constructor
    · rintro ⟨e, rfl, he⟩
      exact Or.inr (Or.inr ⟨e, rfl, he⟩)
    · rintro (hc | ⟨hnone, -⟩ | ⟨e, hx, he⟩)
      · exact absurd hc h
      · cases hnone
      · exact ⟨e, Option.some.inj hx, he⟩
  | expired _ hanswer ht hlate =>
    exact ⟨fun _ => Or.inr (Or.inl ⟨hanswer, _, ht, hlate⟩), fun _ => ⟨_, rfl, rfl⟩⟩

end Moment

/-! ## Quiet moments -/

/-- A call is pending after some moments: all of them are quiet. -/
def Context.AllQuiet (ctx : Context) (moments : List Moment) : Prop :=
  ∀ before m after, moments = before ++ m :: after → m.Quiet ctx.deadline (ctx.CancelledBy before m)

namespace Context

/-- The context after a moment that leaves a call pending. -/
def past (ctx : Context) (m : Moment) : Context :=
  { ctx with cancelled := m.cancels || m.turn.cancelledMeanwhile }

variable {ctx : Context} {m n : Moment} {before moments : List Moment}

theorem cancelledBy_nil : ctx.CancelledBy [] m ↔ (ctx.cancelled || m.turn.cancelledBefore) = true := by
  simp [CancelledBy]

/-- Whether the context has been cancelled may be asked after a quiet moment. -/
theorem cancelledBy_past (h : ¬ ctx.CancelledBy [] m) :
    ctx.CancelledBy (m :: before) n ↔ (ctx.past m).CancelledBy before n := by
  rw [cancelledBy_nil, Bool.or_eq_true, not_or, Bool.not_eq_true, Bool.not_eq_true] at h
  simp only [CancelledBy, past, List.mem_cons, exists_eq_or_imp, Moment.Cancels, h.1, h.2,
    Bool.false_eq_true, false_or, Bool.or_eq_true, or_assoc]

theorem allQuiet_nil : ctx.AllQuiet [] := fun before m after h => by
  cases before <;> cases h

theorem allQuiet_cons_iff : ctx.AllQuiet (m :: moments) ↔
    m.Quiet ctx.deadline (ctx.CancelledBy [] m) ∧ (ctx.past m).AllQuiet moments := by
  constructor
  · intro h
    have hfirst := h [] m moments rfl
    refine ⟨hfirst, fun before n after hn => ?_⟩
    rw [← cancelledBy_past hfirst.kept]
    exact h (m :: before) n after (congrArg (m :: ·) hn)
  · rintro ⟨hfirst, hrest⟩ (_ | ⟨k, before⟩) n after hn
    · cases hn
      exact hfirst
    · obtain ⟨rfl, htail⟩ := List.cons.inj hn
      rw [cancelledBy_past hfirst.kept]
      exact hrest before n after htail

end Context

/-! ## Turns -/

namespace Call

variable (work : Work σ) {ctx : Context} (mode : Mode) (sql : String) {c : Call σ}

/-- **A turn** ends a call with what its moment concludes, or its moment is quiet and the call goes on under the
context that it leaves. -/
theorem take_cases (t : Turn) (hc : c.cancelled = ctx.cancelled) :
    (∃ e, c.take work ctx.deadline mode t = .over e ∧
      (work.moment c.state t).Concludes ctx.deadline mode sql
        (ctx.CancelledBy [] (work.moment c.state t)) (e.inQuery mode sql).outcome) ∨
    ∃ d, c.take work ctx.deadline mode t = .pending d ∧
      (work.moment c.state t).Quiet ctx.deadline (ctx.CancelledBy [] (work.moment c.state t)) ∧
      d.state = (work c.state t).next ∧ d.cancelled = (ctx.past (work.moment c.state t)).cancelled := by
  cases hcancelled : c.cancelled || t.cancelledBefore with
  | true =>
    have hby : ctx.CancelledBy [] (work.moment c.state t) :=
      Context.cancelledBy_nil.mpr (hc ▸ hcancelled)
    exact Or.inl ⟨_, take_of_cancelled hcancelled, .withdrawn hby⟩
  | false =>
    have hby : ¬ ctx.CancelledBy [] (work.moment c.state t) := fun h =>
      Bool.eq_false_iff.mp (hc ▸ hcancelled) (Context.cancelledBy_nil.mp h)
    cases hanswer : (work c.state t).answer with
    | some x =>
      exact Or.inl ⟨_, take_of_answer hcancelled hanswer, .answered hby hanswer (reports_iff.mpr rfl)⟩
    | none =>
      cases hpassed : passed ctx.deadline t.stop with
      | some d =>
        obtain ⟨hd, hlate⟩ := Option.filter_eq_some_iff.mp hpassed
        exact Or.inl ⟨_, take_of_passed hcancelled hanswer hpassed,
          .expired hby hanswer hd (of_decide_eq_true hlate)⟩
      | none =>
        have hintime : ∀ d, ctx.deadline = some d → t.stop.nanos < d.nanos := fun d hd => by
          simpa using Option.filter_eq_none_iff.mp hpassed d hd
        exact Or.inr ⟨_, take_of_nothing hcancelled hanswer hpassed, ⟨hby, hanswer, hintime⟩, rfl, rfl⟩

/-- **Turns end a call** with what the first moment concludes that is not quiet. -/
theorem takeAll_eq_some_iff {turns : List Turn} (hc : c.cancelled = ctx.cancelled)
    {x : Except Error (List Row)} :
    (∃ e, c.takeAll work ctx.deadline mode turns = some e ∧ (e.inQuery mode sql).outcome = x) ↔
      ∃ before m after, work.moments c.state turns = before ++ m :: after ∧ ctx.AllQuiet before ∧
        m.Concludes ctx.deadline mode sql (ctx.CancelledBy before m) x := by
  -- On the turns; the context changes with every turn that leaves the call pending.
  induction turns generalizing c ctx with
  | nil => simp [takeAll, Work.moments]
  | cons t rest ih =>
    rw [takeAll, Work.moments]
    rcases take_cases work mode sql t hc with
      ⟨e, he, hconcludes⟩ | ⟨d, hd, hquiet, hstate, hcancelled⟩
    · simp only [he, Option.some.injEq, exists_eq_left']
      constructor
      · rintro rfl
        exact ⟨[], _, _, rfl, Context.allQuiet_nil, hconcludes⟩
      · rintro ⟨before, m, after, hmoments, hbefore, hm⟩
        cases before with
        | nil =>
          obtain ⟨rfl, -⟩ := List.cons.inj hmoments
          exact hconcludes.unique hm
        | cons n before =>
          obtain ⟨rfl, -⟩ := List.cons.inj hmoments
          exact absurd (Context.allQuiet_cons_iff.mp hbefore).1 hconcludes.not_quiet
    · simp only [hd]
      rw [← hstate]
      refine (ih hcancelled).trans ?_
      constructor
      · rintro ⟨before, m, after, hmoments, hbefore, hm⟩
        refine ⟨_ :: before, m, after, congrArg (_ :: ·) hmoments,
          Context.allQuiet_cons_iff.mpr ⟨hquiet, hbefore⟩, ?_⟩
        rw [Context.cancelledBy_past hquiet.kept]
        exact hm
      · rintro ⟨before, m, after, hmoments, hbefore, hm⟩
        cases before with
        | nil =>
          obtain ⟨rfl, -⟩ := List.cons.inj hmoments
          exact absurd hquiet hm.not_quiet
        | cons n before =>
          obtain ⟨rfl, htail⟩ := List.cons.inj hmoments
          rw [Context.cancelledBy_past hquiet.kept] at hm
          exact ⟨before, m, after, htail, (Context.allQuiet_cons_iff.mp hbefore).2, hm⟩

/-- **Turns leave a call pending** exactly if all their moments are quiet. -/
theorem takeAll_eq_none_iff {turns : List Turn} (hc : c.cancelled = ctx.cancelled) :
    c.takeAll work ctx.deadline mode turns = none ↔ ctx.AllQuiet (work.moments c.state turns) := by
  induction turns generalizing c ctx with
  | nil => exact ⟨fun _ => Context.allQuiet_nil, fun _ => rfl⟩
  | cons t rest ih =>
    rw [takeAll, Work.moments, Context.allQuiet_cons_iff]
    rcases take_cases work mode "" t hc with
      ⟨e, he, hconcludes⟩ | ⟨d, hd, hquiet, hstate, hcancelled⟩
    · simp only [he]
      exact iff_of_false (Option.some_ne_none e) fun h => hconcludes.not_quiet h.1
    · simp only [hd]
      rw [← hstate, and_iff_right hquiet]
      exact ih hcancelled

end Call

/-! ## Queries -/

namespace Work

variable (work : Work σ) (start : σ) (ctx : Context) (mode : Mode) (sql : String) (turns : List Turn)

/-- A query ends with what the first moment concludes that is not quiet. -/
theorem execute_eq_some_iff {x : Except Error (List Row)} :
    (∃ e, work.execute start ctx mode sql turns = some e ∧ e.outcome = x) ↔
      ∃ before m after, work.moments start turns = before ++ m :: after ∧ ctx.AllQuiet before ∧
        m.Concludes ctx.deadline mode sql (ctx.CancelledBy before m) x := by
  refine Iff.trans ?_ (Call.takeAll_eq_some_iff work mode sql (c := ctx.call start) rfl)
  rw [execute]
  constructor
  · rintro ⟨_, he, hx⟩
    obtain ⟨e, htaken, rfl⟩ := Option.map_eq_some_iff.mp he
    exact ⟨e, htaken, hx⟩
  · rintro ⟨e, he, hx⟩
    exact ⟨_, Option.map_eq_some_iff.mpr ⟨e, he, rfl⟩, hx⟩

theorem execute_eq_none_iff :
    work.execute start ctx mode sql turns = none ↔ ctx.AllQuiet (work.moments start turns) := by
  rw [execute, Option.map_eq_none_iff]
  exact Call.takeAll_eq_none_iff work mode rfl

end Work

/-- A query on a warehouse that replies after some time ends so. -/
theorem Warehouse.concludes_run (w : Warehouse) (ctx : Context) (mode : Mode) (sql : String)
    (params : List Value) : ∃ before m after,
      (w.answer ctx ⟨sql, params⟩).work.moments ()
        (ctx.turns (w.answer ctx ⟨sql, params⟩).delay) = before ++ m :: after ∧ ctx.AllQuiet before ∧
      m.Concludes ctx.deadline mode sql (ctx.CancelledBy before m)
        (w.run ctx mode sql params).outcome :=
  (Work.execute_eq_some_iff _ _ _ _ _ _).mp ⟨_, (Option.some_get _).symm, rfl⟩

/-- **What a query comes to**, whatever the warehouse does and however its turns go. It ends in the first moment
that is not quiet, with what this moment concludes, and it is interrupted if something interrupts it in this
moment. As long as all moments are quiet it is pending. -/
theorem Work.execute_concludes (work : Work σ) (start : σ) (ctx : Context) (mode : Mode) (sql : String)
    (turns : List Turn) :
    (∀ x, (∃ e, work.execute start ctx mode sql turns = some e ∧ e.outcome = x) ↔
      ∃ before m after, work.moments start turns = before ++ m :: after ∧ ctx.AllQuiet before ∧
        m.Concludes ctx.deadline mode sql (ctx.CancelledBy before m) x ∧
        (Interrupted x ↔ m.Interrupts ctx.deadline (ctx.CancelledBy before m))) ∧
      (work.execute start ctx mode sql turns = none ↔ ctx.AllQuiet (work.moments start turns)) := by
  refine ⟨fun x => (work.execute_eq_some_iff start ctx mode sql turns).trans ⟨?_, ?_⟩,
    work.execute_eq_none_iff start ctx mode sql turns⟩
  · rintro ⟨before, m, after, hmoments, hbefore, hm⟩
    exact ⟨before, m, after, hmoments, hbefore, hm, hm.interrupted_iff⟩
  · rintro ⟨before, m, after, hmoments, hbefore, hm, -⟩
    exact ⟨before, m, after, hmoments, hbefore, hm⟩

/-- A reply after seven nanoseconds. -/
def slow : Reply := { delay := ⟨7⟩, outcome := .ok [] }

/-- A warehouse that cancels the context and answers at once. -/
def withdrawing : Work Unit := fun _ _ => { next := (), cancels := true, answer := some (.ok []) }

/-- **An answer may overtake the deadline and the caller**: it counts if no time at all is allowed for it, if
the warehouse does not get another turn until the deadline has passed, and if the context is cancelled in the
turn in which it comes. -/
theorem answers_overtake :
    (Warehouse.run ⟨.sqlite, fun _ _ => ⟨⟨0⟩, .ok [⟨[("n", .int 1)]⟩]⟩⟩
        { connection := "default", deadline := some ⟨0⟩ } .count "SELECT 1 AS n" []).outcome =
      .ok [⟨[("n", .int 1)]⟩] ∧
    (∃ e, slow.work.execute () { connection := "default", deadline := some ⟨5⟩ } .count "SELECT 1 AS n"
        [{ start := ⟨0⟩, stop := ⟨0⟩ }, { start := ⟨7⟩, stop := ⟨7⟩ }] = some e ∧ e.outcome = .ok []) ∧
    ∃ e, withdrawing.execute () { connection := "default" } .count "SELECT 1 AS n"
        [{ start := ⟨0⟩, stop := ⟨0⟩ }] = some e ∧ e.outcome = .ok [] :=
  ⟨rfl, ⟨_, rfl, rfl⟩, _, rfl, rfl⟩

end Targeting
