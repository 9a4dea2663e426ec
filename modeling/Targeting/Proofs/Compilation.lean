import Mathlib.Data.List.Forall2
import Targeting.Filter.Compilation
import Targeting.Proofs.Fields
import Targeting.Proofs.Leaves

/-!
# What filters compile to

A filter that compiles asks one comparison of one field: of the field that its name resolves to, with
its own operator, or with `equals` where that is not known. A list compiles to the grouping of these
comparisons, one for each filter in order, and reports the operators that were not known.

* `Filter.chosen`, `Filter.operands`: the operator and the operands that a filter is compiled with;
* `Placement.Asks`, `Placement.AsksAll`: what a filter, and a list of filters, ask of an object;
* `Placement.compileFilter_eq_ok_iff`, **`Placement.condition_eq_ok_iff`**: what compiles;
* `Comparison.sql_shapes`: what the SQL of a comparison looks like;
* **`Placement.AsksAll.operands`**: the operands of what is asked.
-/

namespace Targeting

namespace Filter

/-- The operator that a filter is compiled with: an unknown one counts as `equals`. -/
def chosen (f : Filter) : Operator := f.operator?.getD .equals

/-- The operands of a filter: the items of a list that is searched for a value, the pattern of a text
that is searched for, and the value itself otherwise. -/
def operands (f : Filter) : List Value :=
  match f.chosen, f.operand with
  | .isIn, .list items | .notIn, .list items => Operand.toValues items
  | .contains, v | .notContains, v =>
    [.string ("%" ++ Comparison.searchText v.toValue ++ "%")]
  | _, v => [v.toValue]

/-- The warning for the filter at a path. -/
def warningsAt (path : String) (f : Filter) : List Warning :=
  match f.operator? with
  | some _ => []
  | none => [.unsupportedOperator path f.operator]

/-- The warnings for the filters of a list from position `i` on. -/
def warningsFrom (list : String) (i : Nat) : List Filter → List Warning
  | [] => []
  | f :: rest => f.warningsAt (itemPath list i) ++ warningsFrom list (i + 1) rest

theorem operatorAt_eq_ok_iff {strict : Bool} {path : String} {f : Filter} {op : Operator}
    {ws : List Warning} : f.operatorAt strict path = .ok (op, ws) ↔
      (strict = true → f.operator?.isSome) ∧ f.chosen = op ∧ f.warningsAt path = ws := by
  unfold operatorAt chosen warningsAt
  cases h : f.operator? with
  | some op' => simp
  | none => cases strict <;> simp

end Filter

/-! ## Operands -/

theorem Operand.toValue_ne_null (v : Operand) : v.toValue ≠ .null := by
  cases v with
  | string s => simp [toValue]
  | list items => simp [toValue]
  | number n =>
    rw [toValue]
    fun_cases numberValue n <;> simp

theorem Operand.length_toValues (items : List Operand) :
    (Operand.toValues items).length = items.length := by
  induction items with
  | nil => rfl
  | cons v rest ih => rw [toValues, List.length_cons, List.length_cons, ih]

theorem Sql.operands_operandList (vs : List Value) : (operandList vs).operands = vs := by
  fun_induction operandList vs with
  | case1 => rfl
  | case2 v => rfl
  | case3 v w rest ih => rw [operands, operands, ih]

namespace Comparison

theorem operands_isIn (column : String) (vs : List Value) :
    ((isIn vs).sql column).operands = vs := by
  cases vs with
  | nil => rfl
  | cons v rest =>
    rw [sql, Sql.operands, Sql.operands_append, Sql.operands_operandList]
    · exact List.append_nil _
    · exact List.cons_ne_nil v rest

theorem operands_notIn (column : String) (vs : List Value) :
    ((notIn vs).sql column).operands = vs := by
  cases vs with
  | nil => rfl
  | cons v rest =>
    rw [sql, Sql.operands, Sql.operands_append, Sql.operands_operandList]
    · exact List.append_nil _
    · exact List.cons_ne_nil v rest

theorem operands_equal (column : String) {v : Value} (h : v ≠ .null) :
    ((equal v).sql column).operands = [v] := by
  rw [sql]
  · rfl
  · exact h

theorem operands_notEqual (column : String) {v : Value} (h : v ≠ .null) :
    ((notEqual v).sql column).operands = [v] := by
  rw [sql]
  · rfl
  · exact h

/-- **The SQL of a comparison has one of four shapes**: a constant, or a column with a test, with one
operand or with a list of operands. -/
theorem sql_shapes {P : Sql → Prop} (column : String) (c : Comparison)
    (constant : ∀ s ∈ ["1=0", "1=1"], P [.text s])
    (tested : ∀ s ∈ [" IS NULL", " IS NOT NULL"], P [.text (column ++ s)])
    (compared : ∀ s ∈ [" = ", " != ", " > ", " < ", " LIKE ", " NOT LIKE "], ∀ v,
      P [.text (column ++ s), .operand v])
    (listed : ∀ s ∈ [" IN (", " NOT IN ("], ∀ vs, vs ≠ [] →
      P (.text (column ++ s) :: (Sql.operandList vs ++ [.text ")"]))) : P (c.sql column) := by
  fun_cases sql column c with
  | case1 => exact tested _ (by decide)
  | case2 v _ => exact compared _ (by decide) v
  | case3 => exact tested _ (by decide)
  | case4 v _ => exact compared _ (by decide) v
  | case5 v => exact compared _ (by decide) v
  | case6 v => exact compared _ (by decide) v
  | case7 text => exact compared _ (by decide) _
  | case8 text => exact compared _ (by decide) _
  | case9 => exact constant _ (by decide)
  | case10 items hne => exact listed _ (by decide) items hne
  | case11 => exact constant _ (by decide)
  | case12 items hne => exact listed _ (by decide) items hne

/-- What an operator and an operand are built into: a scalar is compared with, and only the two
operators for lists take a list. -/
theorem build_eq_ok {op : Operator} {v : Operand} {c : Comparison} (h : build op v = .ok c) :
    (v.isList = false ∧ c = single op v.toValue) ∨
      ∃ items, v = .list items ∧ (op = .isIn ∧ c = isIn (Operand.toValues items) ∨
        op = .notIn ∧ c = notIn (Operand.toValues items)) := by
  cases v with
  | string s =>
    refine Or.inl ⟨rfl, ?_⟩
    cases op <;> exact (Except.ok.inj h).symm
  | number n =>
    refine Or.inl ⟨rfl, ?_⟩
    cases op <;> exact (Except.ok.inj h).symm
  | list items =>
    refine Or.inr ⟨items, rfl, ?_⟩
    cases op with
    | isIn => exact Or.inl ⟨rfl, (Except.ok.inj h).symm⟩
    | notIn => exact Or.inr ⟨rfl, (Except.ok.inj h).symm⟩
    | _ => cases h

/-- A comparison with a scalar has one operand: the pattern of its text, or the value itself. -/
theorem operands_single (op : Operator) {v : Value} (hv : v ≠ .null) (column : String) :
    ((single op v).sql column).operands =
      match op with
      | .contains | .notContains => [pattern (searchText v)]
      | _ => [v] := by
  cases op with
  | equals | isIn => exact operands_equal column hv
  | notEquals | notIn => exact operands_notEqual column hv
  | _ => rfl

end Comparison

/-- The operands of a filter that searches a list are the members of the list. -/
theorem Filter.operands_list {f : Filter} {items : List Operand} (hitems : f.operand = .list items)
    (hop : f.chosen = .isIn ∨ f.chosen = .notIn) : f.operands = Operand.toValues items := by
  unfold operands
  rcases hop with hop | hop
  · rw [hop, hitems]
  · rw [hop, hitems]

/-- **A comparison carries the operands of its filter.** -/
theorem Filter.operands_of_build {f : Filter} {c : Comparison}
    (h : Comparison.build f.chosen f.operand = .ok c) (column : String) :
    (c.sql column).operands = f.operands := by
  rcases Comparison.build_eq_ok h with ⟨hscalar, hc⟩ | ⟨items, hitems, ⟨hop, hc⟩ | ⟨hop, hc⟩⟩
  · rw [hc, Comparison.operands_single f.chosen f.operand.toValue_ne_null, Filter.operands]
    cases hv : f.operand with
    | list items => rw [hv] at hscalar; cases hscalar
    | string s => cases f.chosen <;> rfl
    | number n => cases f.chosen <;> rfl
  · rw [hc, operands_list hitems (Or.inl hop)]
    exact Comparison.operands_isIn column _
  · rw [hc, operands_list hitems (Or.inr hop)]
    exact Comparison.operands_notIn column _

/-! ## Filters and lists of filters -/

namespace Placement

variable (p : Placement)

/-- What a filter asks of an object: a comparison of a field. -/
structure Asks (f : Filter) (field : Field) (c : Comparison) : Prop where
  resolved : p.resolveFor f.chosen f.field = .ok field
  built : Comparison.build f.chosen f.operand = .ok c

theorem Asks.column {f : Filter} {field : Field} {c : Comparison} (h : p.Asks f field c) :
    p.columnOf field.name = .ok (p.column field) :=
  columnOf_name (resolveFor_eq_ok_iff.mp h.resolved).1

/-- What the filters of a list ask of an object: one comparison for each filter, in order. -/
def AsksAll (fs : List Filter) (asked : List (Field × Comparison)) : Prop :=
  List.Forall₂ (fun f q => p.Asks f q.1 q.2) fs asked

/-- The qualified column and the comparison that are asked for. -/
def leaf (q : Field × Comparison) : String × Comparison := (p.column q.1, q.2)

/-- What is asked for, as conditions with the connectors of the filters. -/
def tied (fs : List Filter) (asked : List (Field × Comparison)) : List Tied :=
  List.zipWith (fun f q => (.compare (p.column q.1) q.2, f.effectiveConnector)) fs asked

theorem compileFilter_eq_ok_iff {strict : Bool} {path : String} {f : Filter} {c : Condition}
    {ws : List Warning} : p.compileFilter strict path f = .ok (c, ws) ↔
      (strict = true → f.operator?.isSome) ∧ f.warningsAt path = ws ∧
        ∃ field cmp, p.Asks f field cmp ∧ c = .compare (p.column field) cmp := by
  unfold compileFilter
  rw [bind_eq_ok_iff]
  constructor
  · rintro ⟨⟨op, ws'⟩, hop, h⟩
    obtain ⟨hstrict, rfl, rfl⟩ := Filter.operatorAt_eq_ok_iff.mp hop
    obtain ⟨field, hfield, h⟩ := bind_eq_ok_iff.mp h
    obtain ⟨cmp, hcmp, h⟩ := bind_eq_ok_iff.mp h
    have hasks : p.Asks f field cmp := ⟨mapError_eq_ok_iff.mp hfield, mapError_eq_ok_iff.mp hcmp⟩
    rw [hasks.column] at h
    cases h
    exact ⟨hstrict, rfl, field, cmp, hasks, rfl⟩
  · rintro ⟨hstrict, rfl, field, cmp, hasks, rfl⟩
    have hop : f.operatorAt strict path = .ok (f.chosen, f.warningsAt path) :=
      Filter.operatorAt_eq_ok_iff.mpr ⟨hstrict, rfl, rfl⟩
    have hfield := mapError_eq_ok_iff (f := Error.atPath path).mpr hasks.resolved
    have hcmp := mapError_eq_ok_iff (f := fun problem => problem.error.atPath path).mpr hasks.built
    exact ⟨_, hop, bind_eq_ok_iff.mpr ⟨_, hfield, bind_eq_ok_iff.mpr ⟨_, hcmp,
      bind_eq_ok_iff.mpr ⟨_, hasks.column, rfl⟩⟩⟩⟩

/-- **A list of filters compiles** to one comparison for each filter in order. -/
theorem compileFilters_eq_ok_iff {strict : Bool} {list : String} {i : Nat} {fs : List Filter}
    {cs : List Tied} {ws : List Warning} :
    p.compileFilters strict list i fs = .ok (cs, ws) ↔
      (∀ f ∈ fs, strict = true → f.operator?.isSome) ∧ Filter.warningsFrom list i fs = ws ∧
        ∃ asked, p.AsksAll fs asked ∧ cs = p.tied fs asked := by
  induction fs generalizing i cs ws with
  | nil =>
    simp only [compileFilters, Except.ok.injEq, Prod.mk.injEq, AsksAll, List.forall₂_nil_left_iff,
      Filter.warningsFrom, tied]
    constructor
    · rintro ⟨rfl, rfl⟩
      exact ⟨by simp, rfl, [], rfl, rfl⟩
    · rintro ⟨_, rfl, asked, rfl, rfl⟩
      exact ⟨rfl, rfl⟩
  | cons f rest ih =>
    rw [compileFilters, bind_eq_ok_iff]
    constructor
    · rintro ⟨⟨c, ws₁⟩, hc, h⟩
      obtain ⟨⟨cs', ws₂⟩, hcs, h⟩ := bind_eq_ok_iff.mp h
      cases h
      obtain ⟨hstrict, rfl, field, cmp, hasks, rfl⟩ := p.compileFilter_eq_ok_iff.mp hc
      obtain ⟨hrest, rfl, asked, hall, rfl⟩ := ih.mp hcs
      exact ⟨List.forall_mem_cons.mpr ⟨hstrict, hrest⟩, rfl, (field, cmp) :: asked,
        .cons hasks hall, rfl⟩
    · rintro ⟨hstrict, rfl, _, hall, rfl⟩
      obtain ⟨hf, hrest⟩ := List.forall_mem_cons.mp hstrict
      cases hall with
      | @cons _ q _ asked hasks hall =>
        refine ⟨_, p.compileFilter_eq_ok_iff.mpr ⟨hf, rfl, q.1, q.2, hasks, rfl⟩, ?_⟩
        exact bind_eq_ok_iff.mpr ⟨_, ih.mpr ⟨hrest, rfl, asked, hall, rfl⟩, rfl⟩

/-- **The condition of a list of filters** groups the comparisons that they ask for. -/
theorem condition_eq_ok_iff {o : CompilerSettings} {list : String} {fs : List Filter} {c : Condition}
    {ws : List Warning} : p.condition o list fs = .ok (c, ws) ↔
      (∀ f ∈ fs, o.strictOperators = true → f.operator?.isSome) ∧
        Filter.warningsFrom list 0 fs = ws ∧
        ∃ asked, p.AsksAll fs asked ∧ c = .grouped o.grouping (p.tied fs asked) := by
  rw [condition, bind_eq_ok_iff]
  constructor
  · rintro ⟨⟨cs, ws'⟩, hcs, h⟩
    cases h
    obtain ⟨hstrict, rfl, asked, hall, rfl⟩ := p.compileFilters_eq_ok_iff.mp hcs
    exact ⟨hstrict, rfl, asked, hall, rfl⟩
  · rintro ⟨hstrict, rfl, asked, hall, rfl⟩
    exact ⟨_, p.compileFilters_eq_ok_iff.mpr ⟨hstrict, rfl, asked, hall, rfl⟩, rfl⟩

/-! ## The comparisons that are asked for -/

namespace AsksAll

variable {p} {fs : List Filter} {asked : List (Field × Comparison)}

theorem leaves_tied (h : p.AsksAll fs asked) :
    ((p.tied fs asked).map Prod.fst).flatMap Condition.leaves = asked.map p.leaf := by
  induction h with
  | nil => rfl
  | cons _ _ ih => exact congrArg _ ih

/-- The comparisons of the condition of a list are those that its filters ask for. -/
theorem leaves_grouped (h : p.AsksAll fs asked) (g : Grouping) :
    (Condition.grouped g (p.tied fs asked)).leaves = asked.map p.leaf := by
  rw [Condition.leaves_grouped, h.leaves_tied]

/-- **The operands of what is asked** are those of the filters in order. -/
theorem operands (h : p.AsksAll fs asked) :
    ((asked.map p.leaf).flatMap fun l => (Condition.leafSql l).operands) =
      fs.flatMap Filter.operands := by
  induction h with
  | nil => rfl
  | @cons f q fs asked hasks _ ih =>
    rw [List.map_cons, List.flatMap_cons, ih, List.flatMap_cons]
    exact congrArg (· ++ _) (Filter.operands_of_build hasks.built _)

theorem full_of_mem_tied (h : p.AsksAll fs asked) : ∀ t ∈ p.tied fs asked, t.1.Full := by
  induction h with
  | nil => intro t ht; cases ht
  | cons _ _ ih =>
    intro t ht
    rcases List.mem_cons.mp ht with rfl | ht
    · exact .compare _ _
    · exact ih t ht

/-- The condition of a list with filters in it has no empty group. -/
theorem full_grouped (h : p.AsksAll fs asked) (hfs : fs ≠ []) (g : Grouping) :
    (Condition.grouped g (p.tied fs asked)).Full := by
  apply Condition.full_grouped
  · cases h with
    | nil => exact absurd rfl hfs
    | cons _ _ => exact List.cons_ne_nil _ _
  · exact h.full_of_mem_tied

/-- The condition of a list without filters is an empty group. -/
theorem grouped_nil (g : Grouping) : Condition.grouped g (p.tied [] asked) = .all [] := by
  cases g <;> rfl

end AsksAll

end Placement

end Targeting
