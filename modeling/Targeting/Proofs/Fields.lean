import Targeting.Audience.Resolution
import Targeting.Proofs.Outcome

/-!
# What names of fields stand for

A catalog may have several fields of one name, a field may lie in a column that is named like another
field, and a filter may use a name that a field had in the past. All the same a name stands for one
field, and looking for that field by its own name finds it again.

* `CatalogObject.FirstNamed`, `CatalogObject.StandsFor`: the field that a name stands for;
  **`CatalogObject.resolve?_eq_some_iff`**;
* `Field.Permits`: filters may ask this of a field; **`Placement.resolveFor_eq_ok_iff`**;
* **`Placement.columnOf_name`**: the column that is found by the name of a field.
-/

namespace Targeting

/-! ## Catalogs -/

namespace CatalogObject

variable {o : CatalogObject} {name : String} {f : Field}

/-- The first field of a catalog with a name. -/
def FirstNamed (o : CatalogObject) (name : String) (f : Field) : Prop :=
  f.name = name ∧ ∃ before after, o.fields = before ++ f :: after ∧ ∀ g ∈ before, g.name ≠ name

/-- The field that a name stands for: the first one with that name or, only where there is none, the
first one with the name that it is now known by. -/
def StandsFor (o : CatalogObject) (name : String) (f : Field) : Prop :=
  o.FirstNamed name f ∨ (∀ g ∈ o.fields, g.name ≠ name) ∧
    ∃ current, currentName? name = some current ∧ o.FirstNamed current f

theorem field?_eq_some_iff : o.field? name = some f ↔ o.FirstNamed name f := by
  rw [field?, List.find?_eq_some_iff_append, FirstNamed]
  simp

theorem field?_eq_none_iff : o.field? name = none ↔ ∀ g ∈ o.fields, g.name ≠ name := by
  rw [field?, List.find?_eq_none]
  simp

/-- **A name is resolved to the field that it stands for.** -/
theorem resolve?_eq_some_iff : o.resolve? name = some f ↔ o.StandsFor name f := by
  rw [resolve?, Option.orElse_eq_or, Option.or_eq_some_iff, Option.bind_eq_some_iff, StandsFor,
    field?_eq_none_iff]
  simp only [field?_eq_some_iff]

/-- **A field that a name stands for is found again by its own name**: no other field of that name comes
before it. -/
theorem StandsFor.own (h : o.StandsFor name f) : o.StandsFor f.name f := by
  rcases h with h | ⟨_, current, _, h⟩
  · exact Or.inl (h.1 ▸ h)
  · exact Or.inl (h.1 ▸ h)

theorem StandsFor.mem (h : o.StandsFor name f) : f ∈ o.fields := by
  rcases h with ⟨_, before, after, hfields, _⟩ | ⟨_, _, _, _, before, after, hfields, _⟩
  · exact hfields ▸ List.mem_append_right _ List.mem_cons_self
  · exact hfields ▸ List.mem_append_right _ List.mem_cons_self

end CatalogObject

/-- Filters may ask this of a field: it is filterable, and it is either without restrictions or names
the operator, in any ASCII case. -/
structure Field.Permits (f : Field) (op : Operator) : Prop where
  filterable : f.filterable = true
  allowed : f.allowedOperators = [] ∨
    ∃ name ∈ f.allowedOperators, Text.lowerAscii name = Text.lowerAscii op.name

theorem Field.permits_iff {f : Field} {op : Operator} :
    f.Permits op ↔ f.filterable = true ∧ f.allows op = true := by
  have hallows : f.allows op = true ↔ f.allowedOperators = [] ∨
      ∃ name ∈ f.allowedOperators, Text.lowerAscii name = Text.lowerAscii op.name := by
    rw [allows, Bool.or_eq_true, List.isEmpty_iff, List.any_eq_true]
    simp only [Text.sameLetters_iff]
  exact ⟨fun h => ⟨h.filterable, hallows.mpr h.allowed⟩, fun h => ⟨h.1, hallows.mp h.2⟩⟩

/-! ## Placed objects -/

namespace Placement

variable {p : Placement} {name : String} {f : Field}

theorem resolve_eq_ok_iff : p.resolve name = .ok f ↔ p.object.StandsFor name f := by
  rw [← CatalogObject.resolve?_eq_some_iff, resolve]
  cases p.object.resolve? name <;> simp

/-- **What filters may ask for** is resolved, and nothing else is. -/
theorem resolveFor_eq_ok_iff {op : Operator} :
    p.resolveFor op name = .ok f ↔ p.object.StandsFor name f ∧ f.Permits op := by
  rw [← resolve_eq_ok_iff, Field.permits_iff, resolveFor, bind_eq_ok_iff]
  constructor
  · rintro ⟨g, hg, h⟩
    cases hfilterable : g.filterable with
    | false =>
      rw [hfilterable] at h
      cases h
    | true =>
      cases hallows : g.allows op with
      | false =>
        rw [hfilterable, hallows] at h
        cases h
      | true =>
        rw [hfilterable, hallows] at h
        cases h
        exact ⟨hg, hfilterable, hallows⟩
  · rintro ⟨hf, hfilterable, hallows⟩
    refine ⟨f, hf, ?_⟩
    rw [hfilterable, hallows]
    rfl

/-- **The column is that of the field**, also when it is looked up anew by the name of the field. -/
theorem columnOf_name (h : p.object.StandsFor name f) : p.columnOf f.name = .ok (p.column f) :=
  map_eq_ok_iff.mpr ⟨f, resolve_eq_ok_iff.mpr h.own, rfl⟩

end Placement

end Targeting
