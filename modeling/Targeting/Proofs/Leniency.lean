import Targeting.Proofs.SameRows
import Targeting.Proofs.Sources

/-!
# Unknown operators

An operator that is not known is refused if operators are strict, and otherwise taken for `equals` with a
warning. So lenient compilation does what strict compilation does once every unknown operator is replaced
by `equals`, and it says where it did so; where there is nothing to replace, both do the same.

* `Filter.withKnownOperator`, `FilterSet.unknownOperators`: what is replaced, and where;
* `Placement.compileFilters_lenient`, `Audience.stage_lenient`, `Audience.basis_lenient`,
  `Audience.listing_lenient`: the steps;
* `Audience.stage_strict`, `Audience.listing_strict`: what is left to strict compilation;
* `TakenForEquals`, **`Audience.statements_takenForEquals`**: all four statements.
-/

namespace Targeting

/-! ## Options and filters -/

/-- The same settings with unknown operators refused or not. -/
def CompilerSettings.withStrict (strict : Bool) (o : CompilerSettings) : CompilerSettings :=
  { o with strictOperators := strict }

/-- The same options with unknown operators refused or not. -/
def CompileOptions.withStrict (strict : Bool) (o : CompileOptions) : CompileOptions :=
  { o with compiler := o.compiler.withStrict strict }

namespace Filter

/-- The filter with `equals` in place of an operator that is not known. -/
def withKnownOperator (f : Filter) : Filter :=
  match f.operator? with
  | some _ => f
  | none => { f with operator := Operator.equals.name }

/-- The operator of a filter and its path in a list, if the operator is not known. -/
def unknownAt (list : String) (f : Filter) (i : Nat) : Option (String × String) :=
  match f.operator? with
  | some _ => none
  | none => some (itemPath list i, f.operator)

/-- The operators of a list that are not known, each with the path of its filter. -/
def unknownIn (list : String) (fs : List Filter) : List (String × String) :=
  fs.zipIdx.filterMap fun (f, i) => f.unknownAt list i

theorem operator?_withKnownOperator (f : Filter) : f.withKnownOperator.operator? = some f.chosen := by
  unfold withKnownOperator chosen
  cases h : f.operator? with
  | some op => exact h
  | none => exact (by decide : Operator.ofName? Operator.equals.name = some .equals)

theorem field_withKnownOperator (f : Filter) : f.withKnownOperator.field = f.field := by
  unfold withKnownOperator
  split <;> rfl

theorem operand_withKnownOperator (f : Filter) : f.withKnownOperator.operand = f.operand := by
  unfold withKnownOperator
  split <;> rfl

theorem effectiveConnector_withKnownOperator (f : Filter) :
    f.withKnownOperator.effectiveConnector = f.effectiveConnector := by
  unfold withKnownOperator
  split <;> rfl

theorem withKnownOperator_eq_self {f : Filter} (h : f.operator?.isSome) :
    f.withKnownOperator = f := by
  unfold withKnownOperator
  split
  · rfl
  · next hnone =>
    rw [hnone] at h
    cases h

theorem unknownIn_eq_nil_iff {list : String} {fs : List Filter} :
    unknownIn list fs = [] ↔ ∀ f ∈ fs, f.operator?.isSome := by
  have hat : ∀ (f : Filter) (i : Nat), f.unknownAt list i = none ↔ f.operator?.isSome := by
    intro f i
    unfold unknownAt
    cases f.operator? <;> simp
  rw [unknownIn, List.filterMap_eq_nil_iff]
  constructor
  · intro h f hf
    obtain ⟨i, hi, rfl⟩ := List.mem_iff_getElem.mp hf
    exact (hat _ i).mp (h (fs[i], i) (List.mk_mem_zipIdx_iff_getElem?.mpr (List.getElem?_eq_getElem hi)))
  · intro h ⟨f, i⟩ hf
    exact (hat f i).mpr (h f (List.fst_mem_of_mem_zipIdx hf))

end Filter

namespace FilterSet

/-- The filters with `equals` in place of every operator that is not known. -/
def withKnownOperators (s : FilterSet) : FilterSet where
  company := s.company.map Filter.withKnownOperator
  contact := s.contact.map Filter.withKnownOperator

/-- The operators that are not known, each with the path of its filter. -/
def unknownOperators (s : FilterSet) : List (String × String) :=
  Filter.unknownIn Role.parent.listName s.company ++ Filter.unknownIn Role.child.listName s.contact

/-- Where all operators are known, there is nothing to replace. -/
theorem withKnownOperators_eq_self {s : FilterSet} (h : s.unknownOperators = []) :
    s.withKnownOperators = s := by
  obtain ⟨hcompany, hcontact⟩ := List.append_eq_nil_iff.mp h
  have hlist {list : String} {fs : List Filter} (h : Filter.unknownIn list fs = []) :
      fs.map Filter.withKnownOperator = fs :=
    (List.map_congr_left fun f hf =>
      Filter.withKnownOperator_eq_self (Filter.unknownIn_eq_nil_iff.mp h f hf)).trans (List.map_id fs)
  rw [withKnownOperators, hlist hcompany, hlist hcontact]

end FilterSet

/-- The warning for an operator that is not known at a path. -/
def Warning.ofUnknown (u : String × String) : Warning := .unsupportedOperator u.1 u.2

theorem Filter.warningsAt_eq (list : String) (f : Filter) (i : Nat) :
    f.warningsAt (itemPath list i) = (f.unknownAt list i).toList.map Warning.ofUnknown := by
  unfold warningsAt unknownAt
  cases f.operator? <;> rfl

theorem Filter.warningsFrom_eq (list : String) (i : Nat) (fs : List Filter) :
    warningsFrom list i fs =
      ((fs.zipIdx i).filterMap fun (f, i) => f.unknownAt list i).map Warning.ofUnknown := by
  induction fs generalizing i with
  | nil => rfl
  | cons f rest ih =>
    rw [warningsFrom, ih, warningsAt_eq, List.zipIdx_cons, List.filterMap_cons]
    dsimp only
    cases f.unknownAt list i <;> rfl

theorem Filter.warningsFrom_unknownIn (list : String) (fs : List Filter) :
    warningsFrom list 0 fs = (unknownIn list fs).map Warning.ofUnknown :=
  warningsFrom_eq list 0 fs

/-! ## Lenient conditions -/

theorem Filter.operatorAt_lenient (strict : Bool) (path : String) (f : Filter) :
    Agree (fun x y => x.1 = y.1 ∧ x.2 = f.warningsAt path ∧ y.2 = []) (f.operatorAt false path)
      (f.withKnownOperator.operatorAt strict path) := by
  rw [operatorAt, operatorAt, f.operator?_withKnownOperator, warningsAt, chosen]
  cases f.operator? <;> exact .ok ⟨rfl, rfl, rfl⟩

namespace Placement

variable (p : Placement)

theorem compileFilter_lenient (strict : Bool) (path : String) (f : Filter) :
    Agree (fun x y => x.1 = y.1 ∧ x.2 = f.warningsAt path ∧ y.2 = [])
      (p.compileFilter false path f) (p.compileFilter strict path f.withKnownOperator) := by
  rw [compileFilter, compileFilter, f.field_withKnownOperator, f.operand_withKnownOperator]
  refine (f.operatorAt_lenient strict path).bind fun (op, ws) (op', ws') h => ?_
  obtain ⟨rfl, rfl, rfl⟩ := h
  refine .bind_same _ fun field => .bind_same _ fun c => .bind_same _ fun column => .ok ?_
  simp only [and_self]

/-- **Lenient filters compile as the filters with known operators do**, and give the warnings of their
own. -/
theorem compileFilters_lenient (strict : Bool) (list : String) (i : Nat) (fs : List Filter) :
    Agree (fun x y => x.1 = y.1 ∧ x.2 = Filter.warningsFrom list i fs ∧ y.2 = [])
      (p.compileFilters false list i fs)
      (p.compileFilters strict list i (fs.map Filter.withKnownOperator)) := by
  induction fs generalizing i with
  | nil => exact .ok ⟨rfl, rfl, rfl⟩
  | cons f rest ih =>
    rw [List.map_cons, compileFilters, compileFilters]
    refine (p.compileFilter_lenient strict _ f).bind fun x y hxy => ?_
    refine (ih (i + 1)).bind fun xs ys hxys => .ok ⟨?_, ?_, ?_⟩
    · rw [hxy.1, hxys.1, f.effectiveConnector_withKnownOperator]
    · rw [hxy.2.1, hxys.2.1, Filter.warningsFrom]
    · rw [hxy.2.2, hxys.2.2, List.append_nil]

theorem condition_lenient (strict : Bool) (o : CompilerSettings) (list : String) (fs : List Filter) :
    Agree (fun x y => x.1 = y.1 ∧ x.2 = (Filter.unknownIn list fs).map Warning.ofUnknown ∧ y.2 = [])
      (p.condition (o.withStrict false) list fs)
      (p.condition (o.withStrict strict) list (fs.map Filter.withKnownOperator)) := by
  rw [condition, condition, ← Filter.warningsFrom_unknownIn]
  refine (p.compileFilters_lenient strict list 0 fs).bind fun x y hxy => .ok ⟨?_, hxy.2⟩
  exact congrArg (Condition.grouped o.grouping) hxy.1

/-- Strict filters that compile have known operators only. -/
theorem unknownIn_of_condition {o : CompilerSettings} {list : String} {fs : List Filter}
    {x : Condition × List Warning} (h : p.condition (o.withStrict true) list fs = .ok x) :
    Filter.unknownIn list fs = [] :=
  Filter.unknownIn_eq_nil_iff.mpr fun f hf => (p.condition_eq_ok_iff.mp h).1 f hf rfl

end Placement

/-! ## Queries -/

namespace JoinPlan

variable (plan : JoinPlan) (a : Audience) (role : Role)

theorem condition_lenient (strict : Bool) (o : CompilerSettings) (fs : List Filter) :
    Agree (fun x y => x.1 = y.1 ∧
        x.2 = (Filter.unknownIn role.listName fs).map Warning.ofUnknown ∧ y.2 = [])
      (plan.condition (o.withStrict false) a role fs)
      (plan.condition (o.withStrict strict) a role (fs.map Filter.withKnownOperator)) := by
  rw [condition, condition, List.isEmpty_map]
  split
  · next hfs =>
    rw [List.isEmpty_iff.mp hfs]
    exact .ok ⟨rfl, rfl, rfl⟩
  · refine .bind_same (plan.target o a role) fun p => ?_
    refine (p.condition_lenient strict o _ fs).bind fun x y hxy => .ok ⟨?_, hxy.2⟩
    exact congrArg (fun c => [c]) hxy.1

theorem unknownIn_of_condition {o : CompilerSettings} {fs : List Filter}
    {cs : List Condition} {ws : List Warning}
    (h : plan.condition (o.withStrict true) a role fs = .ok (cs, ws)) :
    Filter.unknownIn role.listName fs = [] := by
  rcases condition_eq_ok h with ⟨rfl, _, _⟩ | ⟨_, p, c, _, hc, _⟩
  · rfl
  · exact p.unknownIn_of_condition hc

end JoinPlan

namespace Audience

variable (a : Audience) (o : CompilerSettings) (fs : FilterSet)

/-- The warnings of the plan of the joins, if there is a plan. -/
def joinWarnings : List Warning :=
  match JoinPlan.build a o.joinStrategy with
  | .ok plan => plan.warnings
  | .error _ => []

/-- **Lenient listings are built from what those with known operators are built from**, with a warning for each
that was not known. -/
theorem basis_lenient (strict : Bool) :
    Agree (fun s t => (s.plan = t.plan ∧ s.condition = t.condition) ∧
        s.warnings = a.joinWarnings o ++ fs.unknownOperators.map Warning.ofUnknown ∧
        t.warnings = a.joinWarnings o)
      (a.basis (o.withStrict false) fs)
      (a.basis (o.withStrict strict) fs.withKnownOperators) := by
  rw [basis, basis]
  refine .bind_same _ fun _ => ?_
  unfold joinWarnings
  change Agree _ (JoinPlan.build a o.joinStrategy >>= _) (JoinPlan.build a o.joinStrategy >>= _)
  cases JoinPlan.build a o.joinStrategy with
  | error e => exact .error e
  | ok plan =>
    refine (plan.condition_lenient a .parent strict o fs.company).bind fun x₁ y₁ h₁ => ?_
    refine (plan.condition_lenient a .child strict o fs.contact).bind fun x₂ y₂ h₂ => .ok ?_
    refine ⟨⟨rfl, ?_⟩, ?_, ?_⟩
    · rw [h₁.1, h₂.1]
    · dsimp only
      rw [h₁.2.1, h₂.2.1, List.append_assoc, ← List.map_append, FilterSet.unknownOperators]
    · dsimp only
      rw [h₁.2.2, h₂.2.2, List.append_nil, List.append_nil]

/-- **Lenient listings are listings with known operators**, with the same warnings. -/
theorem listing_lenient (strict : Bool) (limit : Option Nat) :
    Agree (fun q r => q.sql = r.sql ∧
        q.warnings = a.joinWarnings o ++ fs.unknownOperators.map Warning.ofUnknown ∧
        r.warnings = a.joinWarnings o)
      (a.listing (o.withStrict false) fs limit)
      (a.listing (o.withStrict strict) fs.withKnownOperators limit) :=
  (a.basis_lenient o fs strict).map fun s t ⟨⟨hplan, hcondition⟩, hwarnings⟩ =>
    ⟨by rw [Basis.query, Basis.query, hplan, hcondition], hwarnings⟩

/-- **Lenient stages are stages with known operators**, with a warning for each that was not known. -/
theorem stage_lenient (strict : Bool) :
    Agree (fun s t => { s with warnings := [] } = t ∧
        s.warnings = fs.unknownOperators.map Warning.ofUnknown)
      (a.stage (o.withStrict false) fs) (a.stage (o.withStrict strict) fs.withKnownOperators) := by
  rw [stage, stage]
  refine .bind_same _ fun _ => .bind_same (a.parts o) fun parts => .bind_same (a.key o) fun key => ?_
  refine (parts.parent.condition_lenient strict o _ fs.company).bind fun x₁ y₁ h₁ => ?_
  refine (parts.child.condition_lenient strict o _ fs.contact).bind fun x₂ y₂ h₂ => .ok ⟨?_, ?_⟩
  · rw [h₁.1, h₂.1, h₁.2.2, h₂.2.2, List.append_nil]
  · rw [h₁.2.1, h₂.2.1, ← List.map_append, FilterSet.unknownOperators]

variable {a o fs}

theorem unknownOperators_of_listing {limit : Option Nat} {q : Query}
    (h : a.listing (o.withStrict true) fs limit = .ok q) : fs.unknownOperators = [] := by
  obtain ⟨plan, _, _, _, _, _, _, hcompany, hcontact, _⟩ := listing_eq_ok h
  rw [FilterSet.unknownOperators, plan.unknownIn_of_condition a .parent hcompany,
    plan.unknownIn_of_condition a .child hcontact, List.append_nil]

theorem unknownOperators_of_stage {s : Stage} (h : a.stage (o.withStrict true) fs = .ok s) :
    fs.unknownOperators = [] := by
  obtain ⟨_, _, _, _, _, hcompany, hcontact, _⟩ := stage_eq_ok h
  rw [FilterSet.unknownOperators, s.parts.parent.unknownIn_of_condition hcompany,
    s.parts.child.unknownIn_of_condition hcontact, List.append_nil]

/-- **Strict listings are lenient ones** in which all operators are known. -/
theorem listing_strict {limit : Option Nat} {q : Query} :
    a.listing (o.withStrict true) fs limit = .ok q ↔
      a.listing (o.withStrict false) fs limit = .ok q ∧ fs.unknownOperators = [] := by
  have hsame (hknown : fs.unknownOperators = []) :
      a.listing (o.withStrict false) fs limit = a.listing (o.withStrict true) fs limit := by
    have hagree := a.listing_lenient o fs true limit
    rw [FilterSet.withKnownOperators_eq_self hknown, hknown] at hagree
    refine (hagree.imp fun q r ⟨hsql, hq, hr⟩ => ?_).eq
    rw [List.map_nil, List.append_nil, ← hr] at hq
    exact congrArg₂ Query.mk hsql hq
  constructor
  · intro h
    have hknown := unknownOperators_of_listing h
    exact ⟨(hsame hknown).trans h, hknown⟩
  · rintro ⟨h, hknown⟩
    exact (hsame hknown).symm.trans h

/-- **Strict stages are lenient ones** in which all operators are known. -/
theorem stage_strict {s : Stage} : a.stage (o.withStrict true) fs = .ok s ↔
    a.stage (o.withStrict false) fs = .ok s ∧ fs.unknownOperators = [] := by
  have hsame (hknown : fs.unknownOperators = []) :
      a.stage (o.withStrict false) fs = a.stage (o.withStrict true) fs := by
    have hagree := a.stage_lenient o fs true
    rw [FilterSet.withKnownOperators_eq_self hknown, hknown] at hagree
    refine (hagree.imp fun s t ⟨hst, hs⟩ => ?_).eq
    rw [← hst]
    exact congrArg (fun ws => { s with warnings := ws }) hs
  constructor
  · intro h
    have hknown := unknownOperators_of_stage h
    exact ⟨(hsame hknown).trans h, hknown⟩
  · rintro ⟨h, hknown⟩
    exact (hsame hknown).symm.trans h

end Audience

/-! ## Statements -/

/-- A statement under lenient options is the one that any options make of the filters with `equals` in place
of every operator that is not known, or fails with the same error; its warnings are those of the joins
and then one for each operator that is not known. Under strict options it is the same statement if it has
no such warning, and fails otherwise. -/
structure TakenForEquals (statement : FilterSet → CompileOptions → Except Error Statement)
    (joins : List Warning) (fs : FilterSet) (o : CompileOptions) : Prop where
  replaced : ∀ strict, Agree (fun s t => s.sql = t.sql ∧ s.params = t.params ∧
      s.warnings = (joins ++ fs.unknownOperators.map Warning.ofUnknown).map Warning.text)
    (statement fs (o.withStrict false)) (statement fs.withKnownOperators (o.withStrict strict))
  strict : ∀ s, statement fs (o.withStrict true) = .ok s ↔
    statement fs (o.withStrict false) = .ok s ∧
      ∀ path raw, (Warning.unsupportedOperator path raw).text ∉ s.warnings

/-- No text of a warning about an operator is among those of the joins alone, and one is among them if any
operator is not known. -/
theorem unsupportedOperator_notMem_iff {joins : List Warning} {us : List (String × String)}
    (hjoins : ∀ w ∈ joins, ∃ object label, w = .leftOut object label) :
    (∀ path raw, (Warning.unsupportedOperator path raw).text ∉
      (joins ++ us.map Warning.ofUnknown).map Warning.text) ↔ us = [] := by
  constructor
  · intro h
    cases us with
    | nil => rfl
    | cons u rest =>
      refine absurd ?_ (h u.1 u.2)
      exact List.mem_map_of_mem (List.mem_append_right _ List.mem_cons_self)
  · rintro rfl path raw hmem
    rw [List.map_nil, List.append_nil] at hmem
    obtain ⟨w, hw, htext⟩ := List.mem_map.mp hmem
    obtain ⟨object, label, rfl⟩ := hjoins w hw
    exact Warning.text_ne_leftOut path raw object label htext.symm

/-- **A query that is compiled with its unknown operators taken for `equals`** is written so. -/
theorem takenForEquals_of_lenient {α : Type}
    (compile : FilterSet → CompilerSettings → Except Error α) (query : CompilerSettings → α → Query)
    {joins : List Warning} {fs : FilterSet} {o : CompileOptions}
    (hjoins : ∀ w ∈ joins, ∃ object label, w = .leftOut object label)
    (hlenient : ∀ strict, Agree (fun x y =>
        (query (o.compiler.withStrict false) x).sql = (query (o.compiler.withStrict strict) y).sql ∧
        (query (o.compiler.withStrict false) x).warnings =
          joins ++ fs.unknownOperators.map Warning.ofUnknown)
      (compile fs (o.compiler.withStrict false))
      (compile fs.withKnownOperators (o.compiler.withStrict strict)))
    (hstrict : ∀ x, compile fs (o.compiler.withStrict true) = .ok x ↔
      compile fs (o.compiler.withStrict false) = .ok x ∧ fs.unknownOperators = [])
    (hquery : ∀ x, query (o.compiler.withStrict true) x = query (o.compiler.withStrict false) x) :
    TakenForEquals (fun fs o => (compile fs o.compiler).map fun x => (query o.compiler x).write o)
      joins fs o where
  replaced strict := by
    refine (hlenient strict).map fun x y ⟨hsql, hwarnings⟩ => ?_
    have hwritten := congrArg (Sql.write o.dialect o.compiler.valueMode) hsql
    exact ⟨congrArg Sql.Written.text hwritten, congrArg Sql.Written.params hwritten,
      congrArg (List.map Warning.text) hwarnings⟩
  strict s := by
    have hwarnings : ∀ x, compile fs (o.compiler.withStrict false) = .ok x →
        (query (o.compiler.withStrict false) x).warnings =
          joins ++ fs.unknownOperators.map Warning.ofUnknown := by
      intro x hx
      obtain ⟨_, _, _, h⟩ := (hlenient false).exists_ok hx
      exact h
    have hwritten (x : α) : (query (o.withStrict true).compiler x).write (o.withStrict true) =
        (query (o.withStrict false).compiler x).write (o.withStrict false) :=
      congrArg (Query.write o) (hquery x)
    simp only [map_eq_ok_iff, hwritten]
    constructor
    · rintro ⟨x, hx, rfl⟩
      obtain ⟨hx, hknown⟩ := (hstrict x).mp hx
      refine ⟨⟨x, hx, rfl⟩, ?_⟩
      rw [Query.warnings_write]
      exact hwarnings x hx ▸ (unsupportedOperator_notMem_iff hjoins).mpr hknown
    · rintro ⟨⟨x, hx, rfl⟩, hnone⟩
      rw [Query.warnings_write] at hnone
      refine ⟨x, (hstrict x).mpr ⟨hx, (unsupportedOperator_notMem_iff hjoins).mp ?_⟩, rfl⟩
      exact hwarnings x hx ▸ hnone

namespace Audience

variable (a : Audience) (fs : FilterSet) (limit : Option Nat) (o : CompileOptions)

/-- A query that is made from a stage, whatever its warnings. -/
theorem takenForEquals_of_stage (query : CompilerSettings → Stage → Query)
    (hsql : ∀ strict s, (query (o.compiler.withStrict false) s).sql =
      (query (o.compiler.withStrict strict) { s with warnings := [] }).sql)
    (hwarnings : ∀ o s, (query o s).warnings = s.warnings)
    (hquery : ∀ s, query (o.compiler.withStrict true) s = query (o.compiler.withStrict false) s) :
    TakenForEquals (fun fs o => (a.stage o.compiler fs).map fun s => (query o.compiler s).write o)
      [] fs o := by
  refine takenForEquals_of_lenient (fun fs o => a.stage o fs) query nofun ?_
    (fun s => stage_strict) hquery
  refine fun strict => (a.stage_lenient o.compiler fs strict).imp fun s t ⟨hst, hs⟩ => ?_
  subst hst
  exact ⟨hsql strict s, (hwarnings _ s).trans hs⟩

/-- **Unknown operators are taken for `equals`** in all statements. -/
theorem statements_takenForEquals :
    TakenForEquals (fun fs o => a.listingStatement fs limit o) (a.joinWarnings o.compiler) fs o ∧
      TakenForEquals a.countsStatement [] fs o ∧
      TakenForEquals (fun fs o => a.companyStatement fs limit o) [] fs o ∧
      TakenForEquals (fun fs o => a.contactStatement fs limit o) [] fs o := by
  refine ⟨?_, ?_, ?_, ?_⟩
  · simp only [listingStatement_eq]
    refine takenForEquals_of_lenient (fun fs o => a.listing o fs limit) (fun _ => id) ?_ ?_
      (fun q => listing_strict) fun _ => rfl
    · unfold joinWarnings
      intro w hw
      split at hw
      · obtain ⟨p, _, rfl⟩ := List.mem_map.mp hw
        exact ⟨_, _, rfl⟩
      · cases hw
    · exact fun strict => (a.listing_lenient o.compiler fs strict limit).imp
        fun q r ⟨hsql, hq, _⟩ => ⟨hsql, hq⟩
  · simp only [funext fun fs => funext fun o => a.countsStatement_of_stage fs o]
    exact a.takenForEquals_of_stage fs o (fun _ => Stage.counts) (fun _ _ => rfl) (fun _ _ => rfl)
      fun _ => rfl
  · simp only [a.companyStatement_of_stage]
    exact a.takenForEquals_of_stage fs o (fun o s => s.companyPreview (o.previewRows limit))
      (fun _ _ => rfl) (fun _ _ => rfl) fun _ => rfl
  · simp only [a.contactStatement_of_stage]
    exact a.takenForEquals_of_stage fs o (fun o s => s.contactPreview (o.previewRows limit))
      (fun _ _ => rfl) (fun _ _ => rfl) fun _ => rfl

end Audience

end Targeting
