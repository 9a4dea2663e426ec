import Targeting.Proofs.Parameters
import Targeting.Proofs.Parts

/-!
# Grouping by adjacency

By adjacency a list of filters is cut into the longest runs of neighbours with the same connector. A run
of several conditions stands between parentheses, and all runs are joined by `AND`.

* `runText`, `runHolds`, `runsOf`: the text and the truth of a run, and the runs of filters;
* **`Condition.textWith_byAdjacency`**, **`Condition.holds_byAdjacency`**: those of the grouping;
* `Condition.sql_conjunction`: two groups that hold together;
* **`adjacency_groups_runs`**: lists that compile, and listings with two of them.
-/

namespace Targeting

/-- The text of a run: a single condition is bare, several stand between parentheses with their
connector in between. -/
def runText : List (String × Connector) → String
  | [(s, _)] => s
  | run => "(" ++ (connectorOf run).separator.intercalate (run.map Prod.fst) ++ ")"

/-- The truth of a run: that of all members if they are tied by `AND`, and of at least one by `OR`. -/
def runHolds (run : List (Bool × Connector)) : Bool := truthUnder (connectorOf run) run

/-- The runs of what is given for filters in order. -/
def runsOf {α : Type} (values : List α) (fs : List Filter) : List (List (α × Connector)) :=
  (values.zip (fs.map Filter.effectiveConnector)).splitBy sameConnector

namespace Condition

/-- The group of a run. -/
def ofRun (run : List Tied) : Condition := group (connectorOf run) (run.map Prod.fst)

theorem byAdjacency_eq (cs : List Tied) :
    byAdjacency cs = all ((cs.splitBy sameConnector).map ofRun) := by
  rw [byAdjacency, runs_eq_splitBy, List.map_map]
  rfl

theorem textAt_ofRun (w : Nat → Value → String) {run : List Tied} (h : run ≠ []) (i : Nat) :
    textAt w i (ofRun run) = runText (numberedTied (textAt w) operandCount i run) := by
  match run, h with
  | [(c, k)], _ =>
    cases k <;> rfl
  | (c, k) :: (d, l) :: rest, _ =>
    have hgroup : ofRun ((c, k) :: (d, l) :: rest) = under k (c :: d :: rest.map Prod.fst) := by
      cases k <;> rfl
    have hlength : decide (2 ≤ (c :: d :: rest.map Prod.fst).length) = true := by
      simp only [List.length_cons]
      exact decide_eq_true (by omega)
    rw [textAt, hgroup, sqlAt_under k (List.cons_ne_nil c _), hlength, Bool.and_true, enclosed,
      if_pos rfl, Sql.textWith, Sql.textWith_append, textWith_joined, Sql.textWith, Sql.textWith,
      String.append_empty, ← String.append_assoc]
    have hmembers := map_fst_numberedTied (textAt w) operandCount i ((c, k) :: (d, l) :: rest)
    have hrun : runText (numberedTied (textAt w) operandCount i ((c, k) :: (d, l) :: rest)) =
        "(" ++ k.separator.intercalate
          ((numberedTied (textAt w) operandCount i ((c, k) :: (d, l) :: rest)).map Prod.fst) ++
            ")" := rfl
    rw [hrun, hmembers]
    rfl

theorem truthAt_ofRun (v : Nat → Bool) (run : List Tied) (i : Nat) :
    truthAt v i (ofRun run) = runHolds (numberedTied (truthAt v) questionCount i run) := by
  have hconnector : connectorOf (numberedTied (truthAt v) questionCount i run) = connectorOf run := by
    cases run <;> rfl
  rw [ofRun, truthAt_group, runHolds, hconnector]

/-- **The text of a grouping by adjacency** is the texts of its runs, joined by `AND`. -/
theorem textWith_byAdjacency (w : Nat → Value → String) {cs : List Tied} (h : cs ≠ []) (i : Nat) :
    (byAdjacency cs).sql.textWith w i = " AND ".intercalate
      (((numberedTied (textAt w) operandCount i cs).splitBy sameConnector).map runText) := by
  have hne : (cs.splitBy sameConnector).map ofRun ≠ [] :=
    mt List.map_eq_nil_iff.mp (List.splitBy_ne_nil.mpr h)
  have hgroups : numbered (textAt w) operandCount i ((cs.splitBy sameConnector).map ofRun) =
      ((numberedTied (textAt w) operandCount i cs).splitBy sameConnector).map runText :=
    numbered_splitBy _ _ _ (fun _ hrun i => textAt_ofRun w hrun i)
      (fun run _ => operandCount_group _ run) i cs
  rw [byAdjacency_eq, sql, sqlAt_all hne, enclosed, Bool.false_and, if_neg Bool.false_ne_true,
    textWith_joined, hgroups]

/-- **A grouping by adjacency holds** if all of its runs do. -/
theorem holds_byAdjacency (v : Nat → Bool) (i : Nat) (cs : List Tied) :
    (byAdjacency cs).holds v i = true ↔
      ∀ run ∈ (numberedTied (truthAt v) questionCount i cs).splitBy sameConnector,
        runHolds run = true := by
  have hgroups : numbered (truthAt v) questionCount i ((cs.splitBy sameConnector).map ofRun) =
      ((numberedTied (truthAt v) questionCount i cs).splitBy sameConnector).map runHolds :=
    numbered_splitBy _ _ _ (fun run _ i => truthAt_ofRun v run i)
      (fun run _ => questionCount_group _ run) i cs
  rw [byAdjacency_eq, holds, allHold_eq_numbered, hgroups, List.all_map, List.all_eq_true]
  rfl

theorem sqlAfter_append (keyword : String) (cs ds : List Condition) :
    sqlAfter keyword (cs ++ ds) = sqlAfter keyword cs ++ sqlAfter keyword ds := by
  induction cs with
  | nil => rfl
  | cons c rest ih => rw [List.cons_append, sqlAfter, ih, sqlAfter, List.cons_append, List.append_assoc]

theorem joined_append (keyword : String) {cs ds : List Condition} (hcs : cs ≠ []) (hds : ds ≠ []) :
    joined keyword (cs ++ ds) = joined keyword cs ++ .text keyword :: joined keyword ds := by
  obtain ⟨c, cs, rfl⟩ := List.exists_cons_of_ne_nil hcs
  obtain ⟨d, ds, rfl⟩ := List.exists_cons_of_ne_nil hds
  rw [List.cons_append, joined, sqlAfter_append, sqlAfter, joined, joined, List.append_assoc]

/-- **Two groups that hold together** are written one after the other. -/
theorem sql_conjunction {cs ds : List Condition} (hcs : cs ≠ []) (hds : ds ≠ []) :
    (conjunction [all cs, all ds]).sql = (all cs).sql ++ .text " AND " :: (all ds).sql := by
  have hsql : ∀ {es : List Condition}, es ≠ [] → (all es).sql = joined " AND " es := fun h => by
    rw [sql, sqlAt_all h]
    rfl
  have hmembers : conjunction [all cs, all ds] = all (cs ++ ds) := by
    rw [conjunction, conjuncts, conjuncts, conjuncts, List.append_nil]
  rw [hmembers, hsql (List.append_ne_nil_of_left_ne_nil hcs ds), hsql hcs, hsql hds,
    joined_append _ hcs hds]

theorem sql_conjunction_byAdjacency {cs ds : List Tied} (hcs : cs ≠ []) (hds : ds ≠ []) :
    (conjunction [byAdjacency cs, byAdjacency ds]).sql =
      (byAdjacency cs).sql ++ .text " AND " :: (byAdjacency ds).sql := by
  have hne : ∀ {es : List Tied}, es ≠ [] → (es.splitBy sameConnector).map ofRun ≠ [] := fun h =>
    mt List.map_eq_nil_iff.mp (List.splitBy_ne_nil.mpr h)
  rw [byAdjacency_eq, byAdjacency_eq]
  exact sql_conjunction (hne hcs) (hne hds)

end Condition

namespace Placement

variable (p : Placement) (w : Nat → Value → String) (i : Nat) (fs : List Filter)
  (asked : List (Field × Comparison))

/-- The text of the filters of a list in runs, with their operands numbered from `i` on. -/
def runsText : String :=
  " AND ".intercalate
    ((runsOf (Condition.leafTexts w i (asked.map p.leaf)) fs).map runText)

variable {p fs asked}

theorem AsksAll.textWith_byAdjacency (h : p.AsksAll fs asked) (hfs : fs ≠ []) :
    (Condition.byAdjacency (p.tied fs asked)).sql.textWith w i = p.runsText w i fs asked := by
  rw [Condition.textWith_byAdjacency w (h.tied_ne_nil hfs), h.numberedTied_texts]
  rfl

/-- The text of two lists whose filters hold together, with operands numbered through both. -/
theorem textWith_both {q : Placement} {gs : List Filter} {asked' : List (Field × Comparison)}
    (h : p.AsksAll fs asked) (h' : q.AsksAll gs asked') (hfs : fs ≠ []) (hgs : gs ≠ []) :
    (Condition.conjunction
        [.byAdjacency (p.tied fs asked), .byAdjacency (q.tied gs asked')]).sql.textWith w i =
      p.runsText w i fs asked ++ " AND " ++
        q.runsText w (i + (fs.flatMap Filter.operands).length) gs asked' := by
  have hoperands : (Condition.byAdjacency (p.tied fs asked)).sql.operands =
      fs.flatMap Filter.operands := h.operands_grouped .adjacency
  rw [Condition.sql_conjunction_byAdjacency (h.tied_ne_nil hfs) (h'.tied_ne_nil hgs),
    Sql.textWith_append, Sql.textWith, h.textWith_byAdjacency w i hfs, hoperands,
    h'.textWith_byAdjacency w _ hgs, String.append_assoc]

theorem byAdjacency_of_condition {o : CompilerSettings} {list : String} {c : Condition}
    {ws : List Warning} (hg : o.grouping = .adjacency) (h : p.condition o list fs = .ok (c, ws)) :
    ∃ asked, p.AsksAll fs asked ∧ c = .byAdjacency (p.tied fs asked) := by
  obtain ⟨_, _, asked, hall, hc⟩ := p.condition_eq_ok_iff.mp h
  rw [hg] at hc
  exact ⟨asked, hall, hc⟩

end Placement

/-- **By adjacency filters are grouped in runs.** The text of a list that compiles consists of its
runs of neighbours with the same connector, joined by `AND`, and it holds exactly if all runs hold. In a
listing with both lists the runs of the contact filters follow those of the company filters, with
operands numbered through both. -/
theorem adjacency_groups_runs :
    (∀ (p : Placement) (o : CompilerSettings) (list : String) (fs : List Filter) (c : Condition)
        (ws : List Warning), o.grouping = .adjacency → fs ≠ [] → p.condition o list fs = .ok (c, ws) →
      ∃ asked, p.AsksAll fs asked ∧
        (∀ d mode i, c.whereClause.textWith (Sql.mark d mode) i =
          " WHERE " ++ p.runsText (Sql.mark d mode) i fs asked) ∧
        ∀ v, c.holds v 0 = true ↔
          ∀ run ∈ runsOf (Condition.leafTruths v 0 (asked.map p.leaf)) fs, runHolds run = true) ∧
      ∀ (a : Audience) (o : CompileOptions) (fs : FilterSet) (limit : Option Nat) (s : Statement),
        o.compiler.grouping = .adjacency → fs.company ≠ [] → fs.contact ≠ [] →
        a.listingStatement fs limit o = .ok s → ∃ plan parent child company contact,
          JoinPlan.build a o.compiler.joinStrategy = .ok plan ∧
          a.findRole o.compiler .parent = some parent ∧ a.findRole o.compiler .child = some child ∧
          parent.AsksAll fs.company company ∧ child.AsksAll fs.contact contact ∧
          s.sql = plan.listingHead ++ (" WHERE " ++
            (parent.runsText (Sql.mark o.dialect o.compiler.valueMode) 1 fs.company company ++ " AND " ++
              child.runsText (Sql.mark o.dialect o.compiler.valueMode)
                (1 + (fs.company.flatMap Filter.operands).length) fs.contact contact)) ++
            limit.elim "" fun n => " LIMIT " ++ toString n := by
  constructor
  · intro p o list fs c ws hg hfs h
    obtain ⟨asked, hall, rfl⟩ := Placement.byAdjacency_of_condition hg h
    have hfull : (Condition.byAdjacency (p.tied fs asked)).Full := hall.full_grouped hfs .adjacency
    refine ⟨asked, hall, fun d mode i => ?_, fun v => ?_⟩
    · rw [hfull.textWith_whereClause, hall.textWith_byAdjacency _ _ hfs]
    · rw [Condition.holds_byAdjacency, hall.numberedTied_truths]
      rfl
  · intro a o fs limit s hg hcompany hcontact h
    obtain ⟨plan, cs, ds, w₁, w₂, _, hplan, hcs, hds, hsql⟩ := Audience.listingStatement_eq_ok h
    obtain ⟨parent, c, hparent, hc, rfl⟩ := JoinPlan.condition_of_filters hcs hcompany
    obtain ⟨child, d, hchild, hd, rfl⟩ := JoinPlan.condition_of_filters hds hcontact
    obtain ⟨company, hasks, rfl⟩ := Placement.byAdjacency_of_condition hg hc
    obtain ⟨contact, hasks', rfl⟩ := Placement.byAdjacency_of_condition hg hd
    have hfull : (Condition.conjunction [.byAdjacency (parent.tied fs.company company),
        .byAdjacency (child.tied fs.contact contact)]).Full := by
      refine Condition.full_conjunction (List.cons_ne_nil _ _) (List.forall_mem_cons.mpr ⟨?_, ?_⟩)
      · exact hasks.full_grouped hcompany .adjacency
      · exact List.forall_mem_singleton.mpr (hasks'.full_grouped hcontact .adjacency)
    refine ⟨plan, parent, child, company, contact, hplan, hparent, hchild, hasks, hasks', ?_⟩
    rw [hsql, List.singleton_append, hfull.textWith_whereClause,
      Placement.textWith_both _ _ hasks hasks' hcompany hcontact]

/-- Filters with two runs in each list, the last of them with a connector to nothing. -/
def sampleRuns : FilterSet where
  company :=
    [{ Sample.filter "country" .equals "USA" with connector := some .or },
      { Sample.filter "country" .equals "Canada" with connector := some .or },
      Sample.filter "industry" .equals "Software",
      { Sample.filter "employee_count" .greaterThan "50" with connector := some .and }]
  contact :=
    [Sample.filter "job_title" .contains "Director",
      { Sample.filter "seniority" .equals "VP" with connector := some .or }]

example : " AND ".intercalate ((runsOf ["a", "b", "c", "d"] sampleRuns.company).map runText) =
    "(a OR b) AND (c AND d)" := by decide

/-- The runs of the sample, in its company list and in its listing. -/
theorem sample_adjacency_groups_runs :
    (∃ p c ws, Sample.audience.findRole {} .parent = some p ∧
      p.condition {} Role.parent.listName sampleRuns.company = .ok (c, ws) ∧
      ∃ asked, p.AsksAll sampleRuns.company asked ∧
        (∀ d mode i, c.whereClause.textWith (Sql.mark d mode) i =
          " WHERE " ++ p.runsText (Sql.mark d mode) i sampleRuns.company asked) ∧
        ∀ v, c.holds v 0 = true ↔
          ∀ run ∈ runsOf (Condition.leafTruths v 0 (asked.map p.leaf)) sampleRuns.company,
            runHolds run = true) ∧
      ∃ s, Sample.audience.listingStatement sampleRuns (some 10) {} = .ok s ∧
        ∃ plan, ∃ parent child : Placement, ∃ company contact,
          JoinPlan.build Sample.audience .flat = .ok plan ∧
          parent.AsksAll sampleRuns.company company ∧ child.AsksAll sampleRuns.contact contact ∧
          s.sql = plan.listingHead ++ (" WHERE " ++
            (parent.runsText (Sql.mark .postgres .bound) 1 sampleRuns.company company ++ " AND " ++
              child.runsText (Sql.mark .postgres .bound) 5 sampleRuns.contact contact)) ++
            " LIMIT 10" := by
  obtain ⟨hlist, hlisting⟩ := adjacency_groups_runs
  refine ⟨⟨_, _, _, rfl, rfl, hlist _ {} Role.parent.listName _ _ _ rfl
    (List.cons_ne_nil _ _) rfl⟩, _, rfl, ?_⟩
  obtain ⟨plan, parent, child, company, contact, hplan, _, _, hasks, hasks', hsql⟩ :=
    hlisting Sample.audience {} sampleRuns (some 10) _ rfl (List.cons_ne_nil _ _)
      (List.cons_ne_nil _ _) rfl
  exact ⟨plan, parent, child, company, contact, hplan, hasks, hasks', hsql⟩

end Targeting
