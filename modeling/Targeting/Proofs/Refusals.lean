import Targeting.Proofs.Permissions

/-!
# Refused filters

A filter is refused for one of five reasons, which are looked for in order: its operator, its field, whether
filters may ask that field at all, and this of it, and its operand. The first filter of a list that is refused
decides what is reported. A problem of the filter is filed under its position in the list; a field that the
catalog does not have is a mistake in the configuration, and is reported without a position.

* `Refusal`, `Placement.Refuses`: the reasons;
* `Filter.operatorAt_eq_error_iff`, `Placement.resolveFor_eq_error_iff`, `Comparison.build_eq_error_iff`,
  **`Placement.compileFilter_eq_error_iff`**: what one filter fails with;
* `Placement.Accepts`: a filter compiles on its own;
* `Placement.FirstRefused`, **`Placement.condition_eq_error_iff`**: what a list fails with;
* `Audience.groundwork`, `Audience.Rejects`, **`Audience.stage_eq_error_iff`**: what counts and previews fail
  with;
* **`first_refusal_reported`**.
-/

namespace Targeting

/-- Why a filter is refused. -/
inductive Refusal
  | unknownField (field object label : String)
  | problem (p : FilterProblem)

/-- How the refusal of the filter at a path is reported. -/
def Refusal.error (path : String) : Refusal → Error
  | unknownField field object label => .configuration (.unknownField field object label)
  | problem p => p.error.atPath path

/-- A filter for an object is refused: each reason counts only if the ones before it do not hold. -/
inductive Placement.Refuses (p : Placement) (o : CompilerSettings) (f : Filter) : Refusal → Prop
  | unsupportedOperator (h : f.operator? = none) (hstrict : o.strictOperators = true) :
    Refuses p o f (.problem (.unsupportedOperator f.operator))
  | unknownField {op : Operator} (hop : f.CompiledWith o op)
    (h : ∀ field, ¬ p.object.StandsFor f.field field) :
    Refuses p o f (.unknownField f.field p.object.name p.label)
  | notFilterable {op : Operator} {field : Field} (hop : f.CompiledWith o op)
    (hfield : p.object.StandsFor f.field field) (h : field.filterable = false) :
    Refuses p o f (.problem (.notFilterable field.name))
  | operatorNotAllowed {op : Operator} {field : Field} (hop : f.CompiledWith o op)
    (hfield : p.object.StandsFor f.field field) (hfilterable : field.filterable = true)
    (h : ¬ field.Permits op) : Refuses p o f (.problem (.operatorNotAllowed op field.name))
  | listNotAccepted {op : Operator} {field : Field} {items : List Operand} (hop : f.CompiledWith o op)
    (hfield : p.object.StandsFor f.field field) (hpermits : field.Permits op)
    (hlist : f.operand = .list items) (h : op ≠ .isIn ∧ op ≠ .notIn) :
    Refuses p o f (.problem (.listNotAccepted op))

/-! ## One filter -/

theorem Filter.operatorAt_eq_ok_iff_compiledWith {o : CompilerSettings} {path : String} {f : Filter}
    {op : Operator} {ws : List Warning} : f.operatorAt o.strictOperators path = .ok (op, ws) ↔
      f.CompiledWith o op ∧ ws = f.warningsAt path := by
  rw [operatorAt_eq_ok_iff]
  constructor
  · rintro ⟨hstrict, rfl, rfl⟩
    exact ⟨compiledWith_chosen hstrict, rfl⟩
  · rintro ⟨hop, rfl⟩
    cases hop with
    | known h => exact ⟨fun _ => by rw [h]; rfl, by rw [chosen, h]; rfl, rfl⟩
    | unknown h hlenient =>
      exact ⟨fun hstrict => absurd hstrict (by simp [hlenient]), by rw [chosen, h]; rfl, rfl⟩

theorem Filter.operatorAt_eq_error_iff {o : CompilerSettings} {path : String} {f : Filter} {e : Error} :
    f.operatorAt o.strictOperators path = .error e ↔ f.operator? = none ∧ o.strictOperators = true ∧
      e = (FilterProblem.unsupportedOperator f.operator).error.atPath path := by
  unfold operatorAt
  cases h : f.operator? with
  | some op => simp
  | none => cases hstrict : o.strictOperators <;> simp [eq_comm]

/-- A list is refused by the operators that ask for no list, and nothing else is refused. -/
theorem Comparison.build_eq_error_iff {op : Operator} {v : Operand} {problem : FilterProblem} :
    build op v = .error problem ↔
      (∃ items, v = .list items) ∧ (op ≠ .isIn ∧ op ≠ .notIn) ∧ problem = .listNotAccepted op := by
  cases v with
  | string s => cases op <;> simp [build]
  | number n => cases op <;> simp [build]
  | list items => cases op <;> simp [build, eq_comm]

namespace Placement

variable {p : Placement} {o : CompilerSettings} {e : Error}

theorem resolve_eq_error_iff {name : String} : p.resolve name = .error e ↔
    (∀ field, ¬ p.object.StandsFor name field) ∧
      e = .configuration (.unknownField name p.object.name p.label) := by
  simp only [← CatalogObject.resolve?_eq_some_iff]
  rw [resolve]
  cases p.object.resolve? name <;> simp [eq_comm]

/-- **Why filters may not ask for this**: there is no such field, or one of which filters may ask nothing, or
something else. -/
theorem resolveFor_eq_error_iff {op : Operator} {name : String} : p.resolveFor op name = .error e ↔
    p.resolve name = .error e ∨ ∃ field, p.object.StandsFor name field ∧
      (field.filterable = false ∧ e = (FilterProblem.notFilterable field.name).error ∨
        field.filterable = true ∧ ¬ field.Permits op ∧
          e = (FilterProblem.operatorNotAllowed op field.name).error) := by
  rw [resolveFor, bind_eq_error_iff]
  simp only [resolve_eq_ok_iff, Field.permits_iff]
  refine or_congr_right (exists_congr fun field => and_congr_right fun _ => ?_)
  cases field.filterable with
  | false =>
    change Except.error _ = Except.error e ↔ _
    rw [Except.error.injEq, eq_comm]
    simp
  | true =>
    cases field.allows op with
    | false =>
      change Except.error _ = Except.error e ↔ _
      rw [Except.error.injEq, eq_comm]
      simp
    | true =>
      change Except.ok field = Except.error e ↔ _
      simp

variable {path : String} {f : Filter}

/-- The steps at which a filter fails: its operator, its field or its operand. Its column is found, because
its field has been found before. -/
theorem compileFilter_eq_error : p.compileFilter o.strictOperators path f = .error e ↔
    f.operatorAt o.strictOperators path = .error e ∨ ∃ op, f.CompiledWith o op ∧
      ((∃ e', p.resolveFor op f.field = .error e' ∧ e'.atPath path = e) ∨
        ∃ field, p.resolveFor op f.field = .ok field ∧
          ∃ problem, Comparison.build op f.operand = .error problem ∧ problem.error.atPath path = e) := by
  unfold compileFilter
  rw [bind_eq_error_iff]
  refine or_congr_right ⟨?_, ?_⟩
  · rintro ⟨⟨op, ws⟩, hop, h⟩
    refine ⟨op, (Filter.operatorAt_eq_ok_iff_compiledWith.mp hop).1, ?_⟩
    rcases bind_eq_error_iff.mp h with h | ⟨field, hfield, h⟩
    · exact Or.inl (mapError_eq_error_iff.mp h)
    replace hfield := mapError_eq_ok_iff.mp hfield
    rcases bind_eq_error_iff.mp h with h | ⟨c, _, h⟩
    · exact Or.inr ⟨field, hfield, mapError_eq_error_iff.mp h⟩
    · rw [columnOf_name (resolveFor_eq_ok_iff.mp hfield).1] at h
      cases h
  · rintro ⟨op, hop, h⟩
    refine ⟨_, Filter.operatorAt_eq_ok_iff_compiledWith.mpr ⟨hop, rfl⟩, bind_eq_error_iff.mpr ?_⟩
    rcases h with h | ⟨field, hfield, h⟩
    · exact Or.inl (mapError_eq_error_iff.mpr h)
    · exact Or.inr ⟨field, mapError_eq_ok_iff.mpr hfield,
        bind_eq_error_iff.mpr (Or.inl (mapError_eq_error_iff.mpr h))⟩

/-- **What a filter fails with** is the reason for which it is refused. -/
theorem compileFilter_eq_error_iff : p.compileFilter o.strictOperators path f = .error e ↔
    ∃ r, p.Refuses o f r ∧ e = r.error path := by
  rw [compileFilter_eq_error]
  constructor
  · rintro (h | ⟨op, hop, ⟨e', h, rfl⟩ | ⟨field, hfield, problem, h, rfl⟩⟩)
    · obtain ⟨hnone, hstrict, rfl⟩ := Filter.operatorAt_eq_error_iff.mp h
      exact ⟨_, .unsupportedOperator hnone hstrict, rfl⟩
    · rcases resolveFor_eq_error_iff.mp h with h | ⟨_, hfield, ⟨hno, rfl⟩ | ⟨hfilterable, hno, rfl⟩⟩
      · obtain ⟨hno, rfl⟩ := resolve_eq_error_iff.mp h
        exact ⟨_, .unknownField hop hno, rfl⟩
      · exact ⟨_, .notFilterable hop hfield hno, rfl⟩
      · exact ⟨_, .operatorNotAllowed hop hfield hfilterable hno, rfl⟩
    · obtain ⟨⟨items, hlist⟩, hno, rfl⟩ := Comparison.build_eq_error_iff.mp h
      obtain ⟨hstands, hpermits⟩ := resolveFor_eq_ok_iff.mp hfield
      exact ⟨_, .listNotAccepted hop hstands hpermits hlist hno, rfl⟩
  · rintro ⟨r, hr, rfl⟩
    cases hr with
    | unsupportedOperator hnone hstrict =>
      exact Or.inl (Filter.operatorAt_eq_error_iff.mpr ⟨hnone, hstrict, rfl⟩)
    | unknownField hop hno =>
      have h := resolve_eq_error_iff.mpr ⟨hno, rfl⟩
      exact Or.inr ⟨_, hop, Or.inl ⟨_, resolveFor_eq_error_iff.mpr (Or.inl h), rfl⟩⟩
    | notFilterable hop hfield hno =>
      exact Or.inr ⟨_, hop, Or.inl ⟨_, resolveFor_eq_error_iff.mpr
        (Or.inr ⟨_, hfield, Or.inl ⟨hno, rfl⟩⟩), rfl⟩⟩
    | operatorNotAllowed hop hfield hfilterable hno =>
      exact Or.inr ⟨_, hop, Or.inl ⟨_, resolveFor_eq_error_iff.mpr
        (Or.inr ⟨_, hfield, Or.inr ⟨hfilterable, hno, rfl⟩⟩), rfl⟩⟩
    | listNotAccepted hop hfield hpermits hlist hno =>
      have h := Comparison.build_eq_error_iff.mpr ⟨⟨_, hlist⟩, hno, rfl⟩
      exact Or.inr ⟨_, hop, Or.inr ⟨_, resolveFor_eq_ok_iff.mpr ⟨hfield, hpermits⟩, _, h, rfl⟩⟩

/-! ## Lists of filters -/

/-- A filter compiles on its own. -/
def Accepts (p : Placement) (o : CompilerSettings) (list : String) (f : Filter) : Prop :=
  ∃ c, p.condition o list [f] = .ok c

/-- The filter at a position is the first of a list that does not compile on its own, and is refused for
a reason. -/
structure FirstRefused (p : Placement) (o : CompilerSettings) (list : String) (fs : List Filter) (i : Nat)
    (f : Filter) (r : Refusal) : Prop where
  position : fs[i]? = some f
  accepted : ∀ g ∈ fs.take i, p.Accepts o list g
  refused : p.Refuses o f r

variable {list : String} {fs : List Filter}

theorem condition_eq_error_iff_compileFilters : p.condition o list fs = .error e ↔
    p.compileFilters o.strictOperators list 0 fs = .error e := by
  rw [condition, bind_eq_error_iff]
  refine or_iff_left ?_
  rintro ⟨_, _, h⟩
  cases h

theorem compileFilters_singleton_eq_error_iff {i : Nat} :
    p.compileFilters o.strictOperators list i [f] = .error e ↔
      p.compileFilter o.strictOperators (itemPath list i) f = .error e := by
  rw [compileFilters, bind_eq_error_iff]
  refine or_iff_left ?_
  rintro ⟨_, _, h⟩
  cases h

variable (path) in
theorem exists_compileFilter_iff : (∃ c, p.compileFilter o.strictOperators path f = .ok c) ↔
    ∀ r, ¬ p.Refuses o f r := by
  rw [exists_eq_ok_iff]
  simp only [ne_eq, compileFilter_eq_error_iff]
  exact ⟨fun h r hr => h _ ⟨r, hr, rfl⟩, fun h e ⟨r, hr, _⟩ => h r hr⟩

variable (path) in
/-- A filter compiles on its own exactly if it compiles in its place: whether it is refused does not depend
on its path. -/
theorem accepts_iff : p.Accepts o list f ↔ ∃ c, p.compileFilter o.strictOperators path f = .ok c := by
  have hone : p.Accepts o list f ↔
      ∃ c, p.compileFilter o.strictOperators (itemPath list 0) f = .ok c := by
    rw [Accepts, exists_eq_ok_iff, exists_eq_ok_iff]
    simp only [ne_eq, condition_eq_error_iff_compileFilters, compileFilters_singleton_eq_error_iff]
  rw [hone, exists_compileFilter_iff, exists_compileFilter_iff]

theorem firstRefused_zero {g : Filter} {r : Refusal} :
    p.FirstRefused o list (f :: fs) 0 g r ↔ g = f ∧ p.Refuses o f r := by
  constructor
  · rintro ⟨hposition, _, hrefused⟩
    cases hposition
    exact ⟨rfl, hrefused⟩
  · rintro ⟨rfl, hrefused⟩
    exact ⟨rfl, fun g hg => (nomatch hg), hrefused⟩

theorem firstRefused_succ {g : Filter} {i : Nat} {r : Refusal} :
    p.FirstRefused o list (f :: fs) (i + 1) g r ↔ p.Accepts o list f ∧ p.FirstRefused o list fs i g r := by
  constructor
  · rintro ⟨hposition, haccepted, hrefused⟩
    obtain ⟨hf, hfs⟩ := List.forall_mem_cons.mp haccepted
    exact ⟨hf, hposition, hfs, hrefused⟩
  · rintro ⟨hf, hposition, hfs, hrefused⟩
    exact ⟨hposition, List.forall_mem_cons.mpr ⟨hf, hfs⟩, hrefused⟩

/-- The positions count from where the list starts. -/
theorem compileFilters_eq_error_iff {i : Nat} :
    p.compileFilters o.strictOperators list i fs = .error e ↔
      ∃ n f r, p.FirstRefused o list fs n f r ∧ e = r.error (itemPath list (i + n)) := by
  induction fs generalizing i with
  | nil =>
    refine iff_of_false (fun h => nomatch h) ?_
    rintro ⟨n, f, r, hfirst, _⟩
    cases hfirst.position
  | cons f rest ih =>
    rw [compileFilters, bind_eq_error_iff, compileFilter_eq_error_iff]
    constructor
    · rintro (⟨r, hr, rfl⟩ | ⟨⟨c, ws⟩, hf, h⟩)
      · exact ⟨0, f, r, firstRefused_zero.mpr ⟨rfl, hr⟩, rfl⟩
      rcases bind_eq_error_iff.mp h with h | ⟨_, _, h⟩
      · obtain ⟨n, g, r, hfirst, rfl⟩ := ih.mp h
        refine ⟨n + 1, g, r, firstRefused_succ.mpr ⟨?_, hfirst⟩, ?_⟩
        · exact (accepts_iff _).mpr ⟨_, hf⟩
        · rw [Nat.add_right_comm, Nat.add_assoc]
      · cases h
    · rintro ⟨n, g, r, hfirst, rfl⟩
      cases n with
      | zero =>
        obtain ⟨rfl, hr⟩ := firstRefused_zero.mp hfirst
        exact Or.inl ⟨r, hr, rfl⟩
      | succ n =>
        obtain ⟨hf, hfirst⟩ := firstRefused_succ.mp hfirst
        obtain ⟨_, hf⟩ := (accepts_iff (itemPath list i)).mp hf
        have hrest : p.compileFilters o.strictOperators list (i + 1) rest =
            .error (r.error (itemPath list (i + (n + 1)))) :=
          ih.mpr ⟨n, g, r, hfirst, by rw [Nat.add_right_comm, Nat.add_assoc]⟩
        exact Or.inr ⟨_, hf, bind_eq_error_iff.mpr (Or.inl hrest)⟩

theorem exists_compileFilters_iff {i : Nat} :
    (∃ c, p.compileFilters o.strictOperators list i fs = .ok c) ↔ ∀ f ∈ fs, p.Accepts o list f := by
  induction fs generalizing i with
  | nil => exact iff_of_true ⟨_, rfl⟩ fun f hf => nomatch hf
  | cons f rest ih =>
    rw [List.forall_mem_cons, accepts_iff (itemPath list i), ← ih (i := i + 1), compileFilters]
    simp only [bind_eq_ok_iff]
    constructor
    · rintro ⟨_, c, hc, cs, hcs, _⟩
      exact ⟨⟨c, hc⟩, cs, hcs⟩
    · rintro ⟨⟨c, hc⟩, cs, hcs⟩
      exact ⟨_, c, hc, cs, hcs, rfl⟩

/-- **A list compiles** exactly if each of its filters compiles on its own. -/
theorem exists_condition_iff : (∃ c, p.condition o list fs = .ok c) ↔ ∀ f ∈ fs, p.Accepts o list f := by
  rw [← exists_compileFilters_iff (i := 0), exists_eq_ok_iff, exists_eq_ok_iff]
  simp only [ne_eq, condition_eq_error_iff_compileFilters]

/-- **What a list fails with** is the reason for which its first refused filter is, under the position of
that filter. -/
theorem condition_eq_error_iff : p.condition o list fs = .error e ↔
    ∃ i f r, p.FirstRefused o list fs i f r ∧ e = r.error (itemPath list i) := by
  rw [condition_eq_error_iff_compileFilters, compileFilters_eq_error_iff]
  simp only [Nat.zero_add]

/-- What a list of filters reports. -/
structure ReportsFirst (p : Placement) (o : CompilerSettings) (list : String) (fs : List Filter) : Prop where
  /-- The list compiles exactly if each filter does on its own. -/
  compiles_iff : (∃ c, p.condition o list fs = .ok c) ↔ ∀ f ∈ fs, p.Accepts o list f
  /-- It fails exactly if there is a first filter that is refused, and with the reason of that filter. -/
  fails_iff : ∀ e, p.condition o list fs = .error e ↔
    ∃ i f r, p.FirstRefused o list fs i f r ∧ e = r.error (itemPath list i)
  /-- This filter fails for the same reason on its own. -/
  alone : ∀ i f r, p.FirstRefused o list fs i f r →
    p.condition o list [f] = .error (r.error (itemPath list 0))
  /-- A violation has one path, which is the position of this filter, with one violation. -/
  filed : ∀ v, p.condition o list fs = .error (.validation v) → ∃ i f problem,
    p.FirstRefused o list fs i f (.problem problem) ∧ v.message = "" ∧
      v.fields = [(itemPath list i, [problem.violation])] ∧ problem.violation.fields = []
  /-- Where the first refused filter has an operator but asks for a field that the catalog does not have, this
  is a mistake in the configuration, and its text names the field and the object. -/
  unknown : ∀ i f op, fs[i]? = some f → (∀ g ∈ fs.take i, p.Accepts o list g) → f.CompiledWith o op →
    (∀ field, ¬ p.object.StandsFor f.field field) → ∃ e, p.condition o list fs = .error e ∧
      e = .configuration (.unknownField f.field p.object.name p.label) ∧
      e.message = "Configuration error: Field '" ++ f.field ++ "' is not in the catalog of object '" ++
        p.object.name ++ "' (alias " ++ p.label ++ ")"
  /-- Nothing else is reported. -/
  kinds : ∀ e, p.condition o list fs = .error e → (∃ v, e = .validation v) ∨
    ∃ i f, p.FirstRefused o list fs i f (.unknownField f.field p.object.name p.label) ∧
      e = .configuration (.unknownField f.field p.object.name p.label)

theorem reportsFirst (p : Placement) (o : CompilerSettings) (list : String) (fs : List Filter) :
    p.ReportsFirst o list fs where
  compiles_iff := exists_condition_iff
  fails_iff := fun _ => condition_eq_error_iff
  alone := fun i f r h => condition_eq_error_iff.mpr
    ⟨0, f, r, firstRefused_zero.mpr ⟨rfl, h.refused⟩, rfl⟩
  filed := fun v hv => by
    obtain ⟨i, f, r, hfirst, he⟩ := condition_eq_error_iff.mp hv
    cases r with
    | unknownField field object label => cases he
    | problem problem =>
      cases he
      refine ⟨i, f, problem, hfirst, rfl, rfl, ?_⟩
      cases problem <;> rfl
  unknown := fun i f op hposition haccepted hop hno => by
    have he := condition_eq_error_iff.mpr ⟨i, f, _, ⟨hposition, haccepted, .unknownField hop hno⟩, rfl⟩
    exact ⟨_, he, rfl, rfl⟩
  kinds := fun e he => by
    obtain ⟨i, f, r, hfirst, rfl⟩ := condition_eq_error_iff.mp he
    cases r with
    | problem problem => exact Or.inl ⟨_, rfl⟩
    | unknownField field object label =>
      cases hfirst.refused with
      | unknownField hop hno => exact Or.inr ⟨i, f, hfirst, rfl⟩

end Placement

/-! ## Counts and previews -/

namespace Audience

/-- What counts and previews need before they look at the filters: the parent and the child of a valid
audience, and its join key. -/
def groundwork (a : Audience) (o : CompilerSettings) : Except Error (Parts × String) := do
  a.validate
  let parts ← a.parts o
  let key ← a.key o
  return (parts, key)

/-- Counts and previews are rejected: for what they need before, for the company filters or, only where each
of these compiles, for the contact filters. -/
inductive Rejects (a : Audience) (o : CompilerSettings) (fs : FilterSet) (e : Error) : Prop
  | unready (h : a.groundwork o = .error e)
  | company {parts : Parts} {key : String} (hready : a.groundwork o = .ok (parts, key))
    (h : parts.parent.condition o Role.parent.listName fs.company = .error e)
  | contact {parts : Parts} {key : String} (hready : a.groundwork o = .ok (parts, key))
    (hcompany : ∀ f ∈ fs.company, parts.parent.Accepts o Role.parent.listName f)
    (h : parts.child.condition o Role.child.listName fs.contact = .error e)

variable {a : Audience} {o : CompilerSettings} {fs : FilterSet} {e : Error}

theorem stage_eq_groundwork : a.stage o fs = (a.groundwork o >>= fun (parts, key) => do
    let (parentCondition, warnings) ← parts.parent.condition o Role.parent.listName fs.company
    let (childCondition, more) ← parts.child.condition o Role.child.listName fs.contact
    return { parts, key, parentCondition, childCondition, warnings := warnings ++ more }) := by
  unfold stage groundwork
  cases a.validate with
  | error e => rfl
  | ok =>
    cases a.parts o with
    | error e => rfl
    | ok parts => cases a.key o <;> rfl

/-- **What a stage fails with**: the company filters come before the contact filters. -/
theorem stage_eq_error_iff : a.stage o fs = .error e ↔ a.Rejects o fs e := by
  rw [stage_eq_groundwork, bind_eq_error_iff]
  constructor
  · rintro (h | ⟨⟨parts, key⟩, hready, h⟩)
    · exact .unready h
    rcases bind_eq_error_iff.mp h with h | ⟨c, hc, h⟩
    · exact .company hready h
    rcases bind_eq_error_iff.mp h with h | ⟨d, _, h⟩
    · exact .contact hready (Placement.exists_condition_iff.mp ⟨c, hc⟩) h
    · cases h
  · intro h
    cases h with
    | unready h => exact Or.inl h
    | company hready h => exact Or.inr ⟨_, hready, bind_eq_error_iff.mpr (Or.inl h)⟩
    | contact hready hcompany h =>
      obtain ⟨c, hc⟩ := Placement.exists_condition_iff.mpr hcompany
      exact Or.inr ⟨_, hready, bind_eq_error_iff.mpr
        (Or.inr ⟨c, hc, bind_eq_error_iff.mpr (Or.inl h)⟩)⟩

theorem counts_eq_error_iff : a.counts o fs = .error e ↔ a.Rejects o fs e := by
  rw [counts, map_eq_error_iff, stage_eq_error_iff]

theorem previews_eq_error_iff {requested : Option Nat} :
    a.previews o fs requested = .error e ↔ a.Rejects o fs e := by
  rw [previews, bind_eq_error_iff, stage_eq_error_iff]
  refine or_iff_left ?_
  rintro ⟨_, _, h⟩
  cases h

/-- What counts and previews report, where both lists may have refused filters. -/
structure ReportsCompanyFirst (a : Audience) (o : CompilerSettings) (fs : FilterSet)
    (requested : Option Nat) : Prop where
  counts_iff : ∀ e, a.counts o fs = .error e ↔ a.Rejects o fs e
  previews_iff : ∀ e, a.previews o fs requested = .error e ↔ a.Rejects o fs e
  /-- The first refused company filter is reported, whatever the contact filters are. -/
  company : ∀ parts key i f r, a.groundwork o = .ok (parts, key) →
    parts.parent.FirstRefused o Role.parent.listName fs.company i f r →
      a.counts o fs = .error (r.error (itemPath Role.parent.listName i)) ∧
        a.previews o fs requested = .error (r.error (itemPath Role.parent.listName i))
  /-- The first refused contact filter is reported only where no company filter is refused. -/
  contact : ∀ parts key i f r, a.groundwork o = .ok (parts, key) →
    (∀ g ∈ fs.company, parts.parent.Accepts o Role.parent.listName g) →
      parts.child.FirstRefused o Role.child.listName fs.contact i f r →
        a.counts o fs = .error (r.error (itemPath Role.child.listName i)) ∧
          a.previews o fs requested = .error (r.error (itemPath Role.child.listName i))

theorem reportsCompanyFirst (a : Audience) (o : CompilerSettings) (fs : FilterSet)
    (requested : Option Nat) : a.ReportsCompanyFirst o fs requested where
  counts_iff := fun _ => counts_eq_error_iff
  previews_iff := fun _ => previews_eq_error_iff
  company := fun parts key i f r hready h => by
    have he : a.Rejects o fs (r.error (itemPath Role.parent.listName i)) :=
      .company hready (Placement.condition_eq_error_iff.mpr ⟨i, f, r, h, rfl⟩)
    exact ⟨counts_eq_error_iff.mpr he, previews_eq_error_iff.mpr he⟩
  contact := fun parts key i f r hready hcompany h => by
    have he : a.Rejects o fs (r.error (itemPath Role.child.listName i)) :=
      .contact hready hcompany (Placement.condition_eq_error_iff.mpr ⟨i, f, r, h, rfl⟩)
    exact ⟨counts_eq_error_iff.mpr he, previews_eq_error_iff.mpr he⟩

end Audience

/-- **The first refused filter is the one that is reported**, by a list under its position, and by counts and
previews before any contact filter if it is a company filter. -/
theorem first_refusal_reported :
    (∀ (p : Placement) (o : CompilerSettings) (list : String) (fs : List Filter),
      p.ReportsFirst o list fs) ∧
      ∀ (a : Audience) (o : CompilerSettings) (fs : FilterSet) (requested : Option Nat),
        a.ReportsCompanyFirst o fs requested :=
  ⟨Placement.reportsFirst, Audience.reportsCompanyFirst⟩

/-- The second company filter is reported, although the only contact filter is refused, too. -/
example :
    let fs : FilterSet :=
      { company := [Sample.filter "country" .equals "USA", Sample.filter "employee_count" .contains "5"],
        contact := [Sample.filter "age" .equals "42"] }
    (Sample.audience.counts {} fs).mapError Error.message =
      .error ("Validation error: companyFilters[1]: Operator 'contains' is not allowed for field " ++
        "'employee_count'") := rfl

end Targeting
