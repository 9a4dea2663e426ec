import Targeting.Proofs.Parameters

/-!
# Fields that filters touch

Whatever is compiled, a filter touches no field but the one that its name stands for in the catalog of the
object that plays the role, and only if the catalog permits its operator there. The comparisons of each
condition are one for each filter in order, so a condition touches no other columns.

* `Filter.CompiledWith`: the operator that a filter is compiled with;
* `Audience.Touches`: a comparison of a column is what a filter for a role may be compiled to;
  **`Placement.touches_of_condition`**, `JoinPlan.touches_of_condition`;
* `Audience.ListingTouches`, `Stage.Touches`: what the conditions of queries touch;
* **`Audience.statements_touch_permitted`**: they touch what the catalogs permit.
-/

namespace Targeting

/-- The operator that a filter is compiled with: its own or, unless operators are strict, `equals` in place
of one that is not known. -/
inductive Filter.CompiledWith (o : CompilerSettings) (f : Filter) : Operator → Prop
  | known {op : Operator} (h : f.operator? = some op) : CompiledWith o f op
  | unknown (h : f.operator? = none) (hlenient : o.strictOperators = false) : CompiledWith o f .equals

theorem Filter.compiledWith_chosen {o : CompilerSettings} {f : Filter}
    (h : o.strictOperators = true → f.operator?.isSome) : f.CompiledWith o f.chosen := by
  unfold chosen
  cases hop : f.operator? with
  | some op => exact .known hop
  | none =>
    rw [hop] at h
    exact .unknown hop (Bool.eq_false_iff.mpr fun hstrict => nomatch h hstrict)

/-- A comparison of a column is what a filter for a role may be compiled to. It compares the column of a
field of the object that plays the role: the field that the name in the filter stands for, of which filters
may ask what the operator asks. -/
def Audience.Touches (a : Audience) (o : CompilerSettings) (role : Role) (f : Filter)
    (l : String × Comparison) : Prop :=
  ∃ p field op, a.findRole o role = some p ∧ p.object.StandsFor f.field field ∧
    f.CompiledWith o op ∧ field.Permits op ∧ Comparison.build op f.operand = .ok l.2 ∧
    l.1 = p.label ++ "." ++ field.columnName

/-! ## Conditions -/

section

variable {a : Audience} {o : CompilerSettings} {role : Role} {fs : List Filter} {ws : List Warning}

theorem Placement.Asks.touches {p : Placement} (hrole : a.findRole o role = some p) {f : Filter}
    (hstrict : o.strictOperators = true → f.operator?.isSome) {field : Field} {c : Comparison}
    (h : p.Asks f field c) : a.Touches o role f (p.leaf (field, c)) := by
  -- The column is that of the resolved field: `Asks.column` has settled that it is looked up anew.
  obtain ⟨hstands, hpermits⟩ := resolveFor_eq_ok_iff.mp h.resolved
  exact ⟨p, field, f.chosen, hrole, hstands, Filter.compiledWith_chosen hstrict, hpermits, h.built, rfl⟩

theorem Placement.AsksAll.touches {p : Placement} (hrole : a.findRole o role = some p)
    {asked : List (Field × Comparison)} (h : p.AsksAll fs asked)
    (hstrict : ∀ f ∈ fs, o.strictOperators = true → f.operator?.isSome) :
    List.Forall₂ (a.Touches o role) fs (asked.map p.leaf) := by
  induction h with
  | nil => exact .nil
  | cons hasks _ ih =>
    obtain ⟨hf, hfs⟩ := List.forall_mem_cons.mp hstrict
    exact .cons (hasks.touches hrole hf) (ih hfs)

/-- **The condition of a list** touches for each filter in order what that may touch, and nothing else. -/
theorem Placement.touches_of_condition {p : Placement} (hrole : a.findRole o role = some p)
    {list : String} {c : Condition} (h : p.condition o list fs = .ok (c, ws)) :
    List.Forall₂ (a.Touches o role) fs c.leaves := by
  obtain ⟨hstrict, _, asked, hall, rfl⟩ := p.condition_eq_ok_iff.mp h
  rw [hall.leaves_grouped]
  exact hall.touches hrole hstrict

theorem JoinPlan.touches_of_condition {plan : JoinPlan} {cs : List Condition}
    (h : plan.condition o a role fs = .ok (cs, ws)) :
    List.Forall₂ (a.Touches o role) fs (cs.flatMap Condition.leaves) := by
  rcases condition_eq_ok h with ⟨rfl, rfl, _⟩ | ⟨_, p, c, hp, hc, rfl⟩
  · exact .nil
  · rw [List.flatMap_singleton]
    exact Placement.touches_of_condition (target_eq_ok hp).1 hc

end

/-! ## Queries -/

/-- A listing has one condition, which touches what the company filters may touch and then what the contact
filters may touch. -/
def Audience.ListingTouches (a : Audience) (o : CompileOptions) (fs : FilterSet) (limit : Option Nat)
    (s : Statement) : Prop :=
  ∃ plan company contact, ∃ c : Condition, JoinPlan.build a o.compiler.joinStrategy = .ok plan ∧
    List.Forall₂ (a.Touches o.compiler .parent) fs.company company ∧
    List.Forall₂ (a.Touches o.compiler .child) fs.contact contact ∧
    c.leaves = company ++ contact ∧
    s.sql = plan.listingHead ++ c.whereClause.textWith (Sql.mark o.dialect o.compiler.valueMode) 1 ++
      limit.elim "" fun n => " LIMIT " ++ toString n

/-- A stage has one condition for each list, which touches what the filters of that list may touch. -/
structure Stage.Touches (a : Audience) (o : CompilerSettings) (fs : FilterSet) (st : Stage) : Prop where
  parent : List.Forall₂ (a.Touches o .parent) fs.company st.parentCondition.leaves
  child : List.Forall₂ (a.Touches o .child) fs.contact st.childCondition.leaves

/-- The clause of the qualified parents. -/
def Stage.parentClause (st : Stage) (w : Nat → Value → String) : String :=
  st.parentCondition.whereClause.textWith w 1

/-- A statement has the text that a stage gives it, and the stage touches what the filters may touch. -/
def Audience.StageTouches (a : Audience) (o : CompileOptions) (fs : FilterSet) (s : Statement)
    (text : Stage → (Nat → Value → String) → String) : Prop :=
  ∃ st, a.stage o.compiler fs = .ok st ∧ st.Touches a o.compiler fs ∧
    s.sql = text st (Sql.mark o.dialect o.compiler.valueMode)

namespace Audience

variable {a : Audience} {o : CompileOptions} {fs : FilterSet}

theorem touches_of_stage {o : CompilerSettings} {st : Stage} (h : a.stage o fs = .ok st) :
    st.Touches a o fs := by
  obtain ⟨_, hparts, _, _, _, hparent, hchild, _⟩ := stage_eq_ok h
  obtain ⟨hrole₁, hrole₂⟩ := parts_eq_ok hparts
  exact ⟨Placement.touches_of_condition hrole₁ hparent, Placement.touches_of_condition hrole₂ hchild⟩

theorem listing_touches {limit : Option Nat} {s : Statement}
    (h : a.listingStatement fs limit o = .ok s) : a.ListingTouches o fs limit s := by
  obtain ⟨plan, company, contact, _, _, _, hplan, hcompany, hcontact, hsql⟩ := listingStatement_eq_ok h
  refine ⟨plan, _, _, _, hplan, JoinPlan.touches_of_condition hcompany,
    JoinPlan.touches_of_condition hcontact, ?_, hsql⟩
  exact (Condition.leaves_conjunction _).trans List.flatMap_append

variable (a fs) (limit : Option Nat) (o)

/-- **Filters touch what the catalogs permit**, whenever a listing, counts or previews compile: each
comparison is that of its filter, with the column of the one field that the filter may ask. -/
theorem statements_touch_permitted :
    (∀ s, a.listingStatement fs limit o = .ok s → a.ListingTouches o fs limit s) ∧
      (∀ s, a.countsStatement fs o = .ok s → a.StageTouches o fs s fun st w =>
        st.countsText (st.parentClause w) (st.childClause w)) ∧
      (∀ s, a.companyStatement fs limit o = .ok s → a.StageTouches o fs s fun st w =>
        st.previewText st.parts.parent (st.parentClause w) "" (o.compiler.previewRows limit)) ∧
      ∀ s, a.contactStatement fs limit o = .ok s → a.StageTouches o fs s fun st w =>
        st.previewText st.parts.child (st.parentClause w) (st.childClause w)
          (o.compiler.previewRows limit) := by
  refine ⟨fun s => listing_touches, fun s hs => ?_, fun s hs => ?_, fun s hs => ?_⟩
  · obtain ⟨st, hst, rfl⟩ := countsStatement_eq_ok_iff.mp hs
    exact ⟨st, hst, touches_of_stage hst, (Sql.write_text _ _ _).trans (st.textWith_counts _)⟩
  · obtain ⟨st, hst, rfl⟩ := companyStatement_eq_ok_iff.mp hs
    exact ⟨st, hst, touches_of_stage hst, (Sql.write_text _ _ _).trans (st.textWith_preview _ _ [] _)⟩
  · obtain ⟨st, hst, rfl⟩ := contactStatement_eq_ok_iff.mp hs
    exact ⟨st, hst, touches_of_stage hst, (Sql.write_text _ _ _).trans (st.textWith_preview _ _ _ _)⟩

/-- The sample with contacts of which two fields have one name, and one lies in the column that is named like
another. -/
def ambiguous : Audience :=
  { Sample.audience with
    objects :=
      [{ object := Sample.companies, label := "c", role := some .parent },
        { object :=
            { Sample.contacts with
              fields :=
                [{ name := "job_title", column := some "title",
                    allowedOperators := ["EQUALS", "Contains"] },
                  { name := "job_title", filterable := false },
                  { name := "title", column := some "job_title", filterable := false }] }
          label := "p", role := some .child }] }

/-- A filter that uses the former name of a title. -/
def formerly : FilterSet where
  company := [Sample.filter "employee_count" .greaterThan "100"]
  contact := [Sample.filter "jobTitle" .contains "Director"]

/-- By its former name a filter touches the first of the fields that are called the same now. -/
theorem ambiguous_statements_touch_permitted :
    (∃ s, ambiguous.listingStatement formerly (some 10) {} = .ok s ∧
        ambiguous.ListingTouches {} formerly (some 10) s) ∧
      (∃ s, ambiguous.countsStatement formerly {} = .ok s ∧
        ambiguous.StageTouches {} formerly s fun st w =>
          st.countsText (st.parentClause w) (st.childClause w)) ∧
      (∃ s, ambiguous.companyStatement formerly (some 10) {} = .ok s ∧
        ambiguous.StageTouches {} formerly s fun st w =>
          st.previewText st.parts.parent (st.parentClause w) "" 10) ∧
      ∃ s, ambiguous.contactStatement formerly (some 10) {} = .ok s ∧
        ambiguous.StageTouches {} formerly s fun st w =>
          st.previewText st.parts.child (st.parentClause w) (st.childClause w) 10 := by
  obtain ⟨hlisting, hcounts, hcompany, hcontact⟩ :=
    statements_touch_permitted ambiguous {} formerly (some 10)
  exact ⟨⟨_, rfl, hlisting _ rfl⟩, ⟨_, rfl, hcounts _ rfl⟩, ⟨_, rfl, hcompany _ rfl⟩,
    ⟨_, rfl, hcontact _ rfl⟩⟩

end Audience

end Targeting
