import Targeting.Execution.Answer
import Targeting.Proofs.Alphabet
import Targeting.Proofs.Running

/-!
# What is executed

Whoever runs the listing, the counts, a preview or the distinct values of a field has them compiled for the
dialect of the warehouse first. The warehouse gets the statements that are compiled then and no others,
each of them at most once and in order.

* `Audience.previewStatements`: both sides of a preview;
* `Executes`: a call executes what is compiled for it; `Executes.andThen`, `executes_after`: so do the calls
  that are made of it;
* `Warehouse.executes_runStatement`, `Warehouse.executes_beside`: one query, and two queries side by side;
* **`Audience.runs_execute_compiled`**: all four calls execute what is compiled for them.
-/

namespace Targeting

/-- Both sides of a preview as options ask for them, the company side first. -/
def Audience.previewStatements (a : Audience) (fs : FilterSet) (requested : Option Nat)
    (o : CompileOptions) : Except Error (List Statement) :=
  (a.bothPreviews fs requested o).map fun p => [p.company, p.contact]

/-! ## Calls -/

/-- A call executes what is compiled for it. If nothing can be compiled, it fails with the error of that and
sends nothing. Otherwise it sends the statements in order, and all of them if it succeeds. It sends none if
its caller has cancelled before, and then it says so, and at least the first of them if not. -/
inductive Executes {α : Type} (ctx : Context) (mode : Mode) (run : Run α) :
    Except Error (List Statement) → Prop
  | failed {e : Error} (outcome : run.outcome = .error e) (sent : run.sent = []) :
      Executes ctx mode run (.error e)
  | compiled {ss : List Statement} (inOrder : run.sent <+: ss.map Statement.toSent)
      (complete : ∀ x, run.outcome = .ok x → run.sent = ss.map Statement.toSent)
      (cancelled : ctx.cancelled = true →
        run.outcome = .error (.cancelled mode.name) ∧ run.sent = [])
      (started : ctx.cancelled = false → run.sent ≠ []) :
      Executes ctx mode run (.ok ss)

section

variable {α β : Type} {ctx : Context} {mode : Mode}

/-- What is computed from an outcome changes nothing in what is sent. -/
theorem Executes.andThen {run : Run α} {compiled : Except Error (List Statement)}
    (h : Executes ctx mode run compiled) (f : α → Except Error β) :
    Executes ctx mode (run.andThen f) compiled := by
  have herror : ∀ e, run.outcome = .error e → (run.andThen f).outcome = .error e := fun e he => by
    rw [Run.andThen, he]
    rfl
  cases h with
  | failed outcome sent => exact .failed (herror _ outcome) sent
  | compiled inOrder complete cancelled started =>
    refine .compiled inOrder (fun y hy => ?_) (fun hctx => ?_) started
    · obtain ⟨x, hx, _⟩ := bind_eq_ok_iff.mp hy
      exact complete x hx
    · exact ⟨herror _ (cancelled hctx).1, (cancelled hctx).2⟩

theorem executes_after {γ : Type} {x : Except Error γ} {f : γ → Run α} {g : γ → List Statement}
    (h : ∀ c, Executes ctx mode (f c) (.ok (g c))) : Executes ctx mode (.after x f) (x.map g) := by
  cases x with
  | error e => exact .failed rfl rfl
  | ok c => exact h c

end

namespace Warehouse

variable (w : Warehouse) (ctx : Context)

/-- **A statement** is sent as it is written. -/
theorem executes_runStatement (mode : Mode) (s : Statement) :
    Executes ctx mode (w.runStatement ctx mode s) (.ok [s]) := by
  cases hctx : ctx.cancelled with
  | true =>
    have hrun : w.runStatement ctx mode s = .failed (.cancelled mode.name) :=
      w.run_of_cancelled mode _ _ hctx
    rw [hrun]
    exact .compiled List.nil_prefix nofun (fun _ => ⟨rfl, rfl⟩) fun h => nomatch hctx.symm.trans h
  | false =>
    have hsent : (w.runStatement ctx mode s).sent = [s.toSent] :=
      w.sent_run mode _ _ hctx
    exact .compiled (hsent ▸ List.prefix_refl _) (fun _ _ => hsent)
      (fun h => nomatch hctx.symm.trans h) fun _ => hsent ▸ List.cons_ne_nil _ _

/-- **Two statements side by side** are sent one after the other; the second one perhaps not, if the first one
fails. -/
theorem executes_beside (mode next : Mode) (s t : Statement) :
    Executes ctx mode ((w.runStatement ctx mode s).beside (w.runStatement ctx next t)) (.ok [s, t]) := by
  cases hctx : ctx.cancelled with
  | true =>
    have hrun : (w.runStatement ctx mode s).beside (w.runStatement ctx next t) =
        .failed (.cancelled mode.name) := by
      rw [runStatement, runStatement, w.run_of_cancelled mode _ _ hctx, w.run_of_cancelled next _ _ hctx]
      rfl
    rw [hrun]
    exact .compiled List.nil_prefix nofun (fun _ => ⟨rfl, rfl⟩) fun h => nomatch hctx.symm.trans h
  | false =>
    -- The second query is left out only where the first one fails at once, so the whole fails then.
    have hs : (w.runStatement ctx mode s).sent = [s.toSent] := w.sent_run mode _ _ hctx
    have ht : (w.runStatement ctx next t).sent = [t.toSent] := w.sent_run next _ _ hctx
    have hsent := Run.sent_beside (w.runStatement ctx mode s) (w.runStatement ctx next t)
    rw [hs, ht] at hsent
    refine .compiled ?_ (fun x hx => ?_) (fun h => nomatch hctx.symm.trans h) fun _ => ?_
    · rcases hsent with hboth | ⟨hfirst, _⟩
      · exact hboth ▸ List.prefix_refl _
      · exact hfirst ▸ List.prefix_append _ _
    · rcases hsent with hboth | ⟨_, e, he⟩
      · exact hboth
      · exact nomatch hx.symm.trans he
    · rcases hsent with hboth | ⟨hfirst, _⟩
      · exact hboth ▸ List.cons_ne_nil _ _
      · exact hfirst ▸ List.cons_ne_nil _ _

end Warehouse

/-! ## Answers -/

namespace Audience

variable (a : Audience) (w : Warehouse) (ctx : Context) (o : CompileOptions) (fs : FilterSet)

/-- **What is executed is what is compiled** for the dialect of the warehouse, whatever the warehouse, the
context and the audience are. -/
theorem runs_execute_compiled (limit : Option Nat) (label field : String) (rows : Nat) :
    Executes ctx .listing (a.runListing w ctx o fs limit)
        ((a.listingStatement fs limit (o.withDialect w.dialect)).map fun s => [s]) ∧
      Executes ctx .count (a.runCounts w ctx o fs)
        ((a.countsStatement fs (o.withDialect w.dialect)).map fun s => [s]) ∧
      Executes ctx .companyPreview (a.runPreview w ctx o fs limit)
        (a.previewStatements fs limit (o.withDialect w.dialect)) ∧
      Executes ctx .distinctValues (a.runDistinct w ctx o label field rows)
        ((a.distinctStatement label field rows (o.withDialect w.dialect)).map fun s => [s]) := by
  refine ⟨?_, ?_, ?_, ?_⟩
  · exact executes_after fun s => w.executes_runStatement ctx .listing s
  · exact executes_after fun s => (w.executes_runStatement ctx .count s).andThen _
  · exact executes_after fun p =>
      (w.executes_beside ctx .companyPreview .contactPreview p.company p.contact).andThen _
  · exact executes_after fun s => (w.executes_runStatement ctx .distinctValues s).andThen _

end Audience

end Targeting
