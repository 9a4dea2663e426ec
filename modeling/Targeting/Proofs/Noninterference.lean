import Targeting.Proofs.Contents
import Targeting.Proofs.Queries
import Targeting.Sample

/-!
# Noninterference

What users write into operands never reaches the text of a statement in bound mode. Two filter sets
that differ in the contents of their operands only are followed through compilation side by side.

* `Filter.Alike`, `FilterSet.Alike`: the same filters up to the contents of operands;
* `Statement.Alike`: the same text and warnings, and parameters of the same number;
* `Placement.compileFilters_alike`, `Audience.stage_alike`, `Audience.listing_alike`: the steps;
* **`Audience.statements_alike`**: alike filter sets have alike statements, or fail alike.
-/

namespace Targeting

/-! ## Alike -/

/-- The number of items of an operand that is a list. -/
def Operand.items? : Operand → Option Nat
  | .list items => some items.length
  | _ => none

/-- Filters that differ in the contents of their operands only. -/
structure Filter.Alike (f g : Filter) : Prop where
  field : f.field = g.field
  operator : f.operator = g.operator
  connector : f.connector = g.connector
  items : f.operand.items? = g.operand.items?

/-- Filter sets whose filters are alike one by one. -/
structure FilterSet.Alike (fs gs : FilterSet) : Prop where
  company : List.Forall₂ Filter.Alike fs.company gs.company
  contact : List.Forall₂ Filter.Alike fs.contact gs.contact

/-- Statements that differ in the values of their parameters only. -/
structure Statement.Alike (s t : Statement) : Prop where
  sql : s.sql = t.sql
  warnings : s.warnings = t.warnings
  params : s.params.length = t.params.length

/-- Queries that differ in the contents of their operands only. -/
structure Query.Alike (q r : Query) : Prop where
  sql : q.sql.blank = r.sql.blank
  warnings : q.warnings = r.warnings

/-- Alike queries are alike as statements in bound mode. -/
theorem Query.Alike.write {q r : Query} (h : q.Alike r) (o : CompileOptions) :
    (q.write (o.withValueMode .bound)).Alike (r.write (o.withValueMode .bound)) where
  sql := by
    have htext : q.sql.textWith (Sql.mark o.dialect .bound) 1 =
        r.sql.textWith (Sql.mark o.dialect .bound) 1 := by
      rw [← Sql.textWith_blank, h.sql, Sql.textWith_blank]
    rwa [← Sql.bound_eq, ← Sql.bound_eq] at htext
  warnings := congrArg (List.map Warning.text) h.warnings
  params := by
    have hlength : q.sql.operands.length = r.sql.operands.length := by
      rw [← Sql.length_operands_blank, h.sql, Sql.length_operands_blank]
    exact hlength

/-! ## Filters -/

/-- A comparison with a scalar that is not null shows nothing but its operator. -/
theorem Comparison.blank_single (op : Operator) {v w : Value} (hv : v ≠ .null) (hw : w ≠ .null) :
    (single op v).blank = (single op w).blank := by
  cases op <;> simp only [single, blank, Value.blank_of_ne_null hv, Value.blank_of_ne_null hw]

theorem Comparison.build_scalar {v : Operand} (h : v.items? = none) (op : Operator) :
    build op v = .ok (single op v.toValue) := by
  cases v with
  | string s => cases op <;> rfl
  | number n => cases op <;> rfl
  | list items => cases h

theorem Operand.items?_eq_some {v : Operand} {n : Nat} (h : v.items? = some n) :
    ∃ items, v = .list items ∧ items.length = n := by
  cases v with
  | list items => exact ⟨items, rfl, Option.some.inj h⟩
  | _ => cases h

/-- **Comparisons with operands of one shape** differ in contents only, or fail with the same error. -/
theorem Comparison.build_alike (op : Operator) {v w : Operand} (h : v.items? = w.items?) :
    Agree (fun b c => b.blank = c.blank) (build op v) (build op w) := by
  cases hv : v.items? with
  | none =>
    -- No operand is null, so the test for null cannot tell two scalars apart.
    rw [build_scalar hv, build_scalar (h ▸ hv)]
    exact .ok (blank_single op v.toValue_ne_null w.toValue_ne_null)
  | some n =>
    obtain ⟨items, rfl, hitems⟩ := Operand.items?_eq_some hv
    obtain ⟨others, rfl, hothers⟩ := Operand.items?_eq_some (h ▸ hv)
    have hmap : (Operand.toValues items).map (fun _ => Value.string "") =
        (Operand.toValues others).map fun _ => Value.string "" := by
      rw [List.map_const', List.map_const', Operand.length_toValues, Operand.length_toValues, hitems,
        hothers]
    cases op with
    | isIn => exact .ok (congrArg isIn hmap)
    | notIn => exact .ok (congrArg notIn hmap)
    | _ => exact .error _

namespace Filter.Alike

variable {f g : Filter} (h : f.Alike g)
include h

theorem operator? : f.operator? = g.operator? := by rw [Filter.operator?, h.operator, Filter.operator?]

theorem operatorAt (strict : Bool) (path : String) :
    f.operatorAt strict path = g.operatorAt strict path := by
  rw [Filter.operatorAt, Filter.operatorAt, h.operator?, h.operator]

theorem effectiveConnector : f.effectiveConnector = g.effectiveConnector := by
  rw [Filter.effectiveConnector, h.connector, Filter.effectiveConnector]

end Filter.Alike

namespace Placement

variable (p : Placement) {f g : Filter} {fs gs : List Filter}

/-- **Alike filters compile alike.** -/
theorem compileFilter_alike (h : f.Alike g) (strict : Bool) (path : String) :
    Agree (fun x y => x.1.blank = y.1.blank ∧ x.2 = y.2) (p.compileFilter strict path f)
      (p.compileFilter strict path g) := by
  rw [compileFilter, compileFilter, h.operatorAt, h.field]
  refine .bind_same _ fun ⟨op, ws⟩ => .bind_same _ fun field => ?_
  refine ((Comparison.build_alike op h.items).mapError _).bind fun b c hbc => ?_
  refine .bind_same _ fun column => .ok ⟨?_, rfl⟩
  rw [Condition.blank_compare, hbc, Condition.blank_compare]

theorem compileFilters_alike (h : List.Forall₂ Filter.Alike fs gs) (strict : Bool) (list : String)
    (i : Nat) : Agree (fun x y => x.1.map Tied.blank = y.1.map Tied.blank ∧ x.2 = y.2)
      (p.compileFilters strict list i fs) (p.compileFilters strict list i gs) := by
  induction h generalizing i with
  | nil => exact .ok ⟨rfl, rfl⟩
  | cons h _ ih =>
    rw [compileFilters, compileFilters]
    refine (p.compileFilter_alike h strict _).bind fun x y hxy => ?_
    refine (ih (i + 1)).bind fun xs ys hxys => .ok ⟨?_, ?_⟩
    · rw [List.map_cons, List.map_cons, hxys.1, Tied.blank, Tied.blank, hxy.1, h.effectiveConnector]
    · rw [hxy.2, hxys.2]

/-- **Alike lists of filters have conditions that differ in contents only.** -/
theorem condition_alike (h : List.Forall₂ Filter.Alike fs gs) (o : CompilerSettings) (list : String) :
    Agree (fun x y => x.1.blank = y.1.blank ∧ x.2 = y.2) (p.condition o list fs)
      (p.condition o list gs) := by
  rw [condition, condition]
  refine (p.compileFilters_alike h _ list 0).bind fun x y hxy => .ok ⟨?_, hxy.2⟩
  rw [Condition.blank_grouped, hxy.1, Condition.blank_grouped]

end Placement

/-! ## Queries -/

theorem JoinPlan.condition_alike (plan : JoinPlan) (o : CompilerSettings) (a : Audience) (role : Role)
    {fs gs : List Filter} (h : List.Forall₂ Filter.Alike fs gs) :
    Agree (fun x y => x.1.map Condition.blank = y.1.map Condition.blank ∧ x.2 = y.2)
      (plan.condition o a role fs) (plan.condition o a role gs) := by
  have hempty : fs.isEmpty = gs.isEmpty := by cases h <;> rfl
  rw [condition, condition, hempty]
  split
  · exact .ok ⟨rfl, rfl⟩
  · refine .bind_same _ fun p => (p.condition_alike h o _).bind fun x y hxy => .ok ⟨?_, hxy.2⟩
    rw [List.map_singleton, hxy.1, List.map_singleton]

/-- What listings are built from, up to the contents of operands. -/
structure Basis.Alike (s t : Basis) : Prop where
  plan : s.plan = t.plan
  condition : s.condition.blank = t.condition.blank
  warnings : s.warnings = t.warnings

theorem Basis.Alike.query {s t : Basis} (h : s.Alike t) (limit : Option Nat) :
    (s.query limit).Alike (t.query limit) where
  sql := by
    simp only [Basis.query, Sql.blank_text, Sql.blank_append, h.plan,
      Condition.blank_whereClause h.condition]
  warnings := h.warnings

/-- Stages that differ in the contents of operands only. -/
structure Stage.Alike (s t : Stage) : Prop where
  parts : s.parts = t.parts
  key : s.key = t.key
  parent : s.parentCondition.blank = t.parentCondition.blank
  child : s.childCondition.blank = t.childCondition.blank
  warnings : s.warnings = t.warnings

namespace Stage.Alike

variable {s t : Stage} (h : s.Alike t)
include h

theorem name : s.name = t.name := by rw [Stage.name, h.parts, Stage.name]

theorem belonging (p : Placement) : s.belonging p = t.belonging p := by
  unfold Stage.belonging
  rw [h.name, h.key]

theorem qualifiedHead : s.qualifiedHead = t.qualifiedHead := by
  unfold Stage.qualifiedHead
  rw [h.name, h.parts, h.key]

theorem countsHead : s.countsHead = t.countsHead := by
  unfold Stage.countsHead
  rw [h.name, h.parts, h.key]

theorem qualified : s.qualified.blank = t.qualified.blank := by
  rw [Stage.qualified, Stage.qualified, h.qualifiedHead, Sql.blank_text, Sql.blank_text,
    Sql.blank_append, Sql.blank_append, Condition.blank_whereClause h.parent]

theorem members : s.members.blank = t.members.blank := by
  rw [Stage.members, Stage.members, h.belonging, h.parts, Sql.blank_text, Sql.blank_text,
    Condition.blank_whereClause h.child]

theorem counts : s.counts.Alike t.counts where
  sql := by
    simp only [Stage.counts, Sql.blank_text, Sql.blank_append, h.qualified, h.countsHead, h.members]
  warnings := h.warnings

theorem preview {p : Placement} {rows rows' : Sql} (hrows : rows.blank = rows'.blank) (limit : Nat) :
    (s.preview p rows limit).Alike (t.preview p rows' limit) where
  sql := by simp only [Stage.preview, Sql.blank_text, Sql.blank_append, h.qualified, hrows]
  warnings := h.warnings

theorem companyPreview (limit : Nat) : (s.companyPreview limit).Alike (t.companyPreview limit) := by
  rw [Stage.companyPreview, Stage.companyPreview, h.parts, h.belonging]
  exact h.preview rfl limit

theorem contactPreview (limit : Nat) : (s.contactPreview limit).Alike (t.contactPreview limit) := by
  rw [Stage.contactPreview, Stage.contactPreview, h.parts]
  exact h.preview h.members limit

end Stage.Alike

namespace Audience

section

variable (a : Audience) {fs gs : FilterSet} (h : fs.Alike gs)
include h

/-- **What listings of alike filters are built from is alike.** -/
theorem basis_alike (o : CompilerSettings) :
    Agree Basis.Alike (a.basis o fs) (a.basis o gs) := by
  rw [basis, basis]
  refine .bind_same _ fun _ => .bind_same _ fun plan => ?_
  refine (plan.condition_alike o a .parent h.company).bind fun x₁ y₁ h₁ => ?_
  refine (plan.condition_alike o a .child h.contact).bind fun x₂ y₂ h₂ => .ok ⟨rfl, ?_, ?_⟩
  · rw [Condition.blank_conjunction, List.map_append, h₁.1, h₂.1, ← List.map_append,
      Condition.blank_conjunction]
  · simp only [h₁.2, h₂.2]

theorem listing_alike (o : CompilerSettings) (limit : Option Nat) :
    Agree Query.Alike (a.listing o fs limit) (a.listing o gs limit) :=
  (a.basis_alike h o).map fun _ _ hs => hs.query limit

/-- **Stages of alike filters are alike.** -/
theorem stage_alike (o : CompilerSettings) :
    Agree Stage.Alike (a.stage o fs) (a.stage o gs) := by
  rw [stage, stage]
  refine .bind_same _ fun _ => .bind_same _ fun parts => .bind_same _ fun key => ?_
  refine (parts.parent.condition_alike h.company o _).bind fun x₁ y₁ h₁ => ?_
  refine (parts.child.condition_alike h.contact o _).bind fun x₂ y₂ h₂ => .ok ?_
  exact ⟨rfl, rfl, h₁.1, h₂.1, congrArg₂ (· ++ ·) h₁.2 h₂.2⟩

/-- **The contents of operands never reach the text in bound mode**: filters that differ in them only
have statements of one text, with the same warnings and as many parameters, or fail with one error. -/
theorem statements_alike (limit : Option Nat) (o : CompileOptions) :
    Agree Statement.Alike (a.listingStatement fs limit (o.withValueMode .bound))
        (a.listingStatement gs limit (o.withValueMode .bound)) ∧
      Agree Statement.Alike (a.countsStatement fs (o.withValueMode .bound))
        (a.countsStatement gs (o.withValueMode .bound)) ∧
      Agree Statement.Alike (a.companyStatement fs limit (o.withValueMode .bound))
        (a.companyStatement gs limit (o.withValueMode .bound)) ∧
      Agree Statement.Alike (a.contactStatement fs limit (o.withValueMode .bound))
        (a.contactStatement gs limit (o.withValueMode .bound)) := by
  refine ⟨?_, ?_, ?_, ?_⟩
  · rw [listingStatement_eq, listingStatement_eq]
    exact (a.listing_alike h _ limit).map fun _ _ hq => hq.write o
  · rw [countsStatement_of_stage, countsStatement_of_stage]
    exact (a.stage_alike h _).map fun _ _ hs => hs.counts.write o
  · rw [companyStatement_of_stage, companyStatement_of_stage]
    exact (a.stage_alike h _).map fun _ _ hs => (hs.companyPreview _).write o
  · rw [contactStatement_of_stage, contactStatement_of_stage]
    exact (a.stage_alike h _).map fun _ _ hs => (hs.contactPreview _).write o

end

/-- Filters like those of the sample, with operands that try to get out of a literal. -/
def hostile : FilterSet where
  company :=
    [{ Sample.filter "country" .equals "' OR 1=1 --" with connector := some .or },
      { Sample.filter "country" .equals "" with connector := some .or },
      Sample.filter "industry" .equals "NULL"]
  contact := [Sample.filter "job_title" .contains "%'; /*"]

/-- Operands that try to get out of a literal change nothing in the counts of the sample. -/
theorem sample_statements_alike :
    Sample.directors.Alike hostile ∧ ∃ s t,
      Sample.audience.countsStatement Sample.directors (({} : CompileOptions).withValueMode .bound) =
          .ok s ∧
        Sample.audience.countsStatement hostile (({} : CompileOptions).withValueMode .bound) = .ok t ∧
        s.Alike t := by
  have halike : Sample.directors.Alike hostile := by
    constructor
    · exact .cons ⟨rfl, rfl, rfl, rfl⟩ (.cons ⟨rfl, rfl, rfl, rfl⟩ (.cons ⟨rfl, rfl, rfl, rfl⟩ .nil))
    · exact .cons ⟨rfl, rfl, rfl, rfl⟩ .nil
  refine ⟨halike, _, _, rfl, rfl, ?_⟩
  cases (Sample.audience.statements_alike halike none {}).2.1 with
  | ok h => exact h

end Audience

end Targeting
