import Mathlib.Data.List.Nodup
import Targeting.Proofs.Vetted
import Targeting.Sample

/-!
# The scope of flat plans

The flat strategy joins every object by the first relationship that mentions it and keeps the order of the
audience. If relationships name both of their ends, the other end is never left out, but it may be joined
only later. So a condition refers to what the clause introduces, and to what it has introduced before only
if the relationships are in a fitting order.

* `Relationship.Connects`, `Audience.Paired`: relationships between two objects;
* `JoinPlan.Scoped`: a plan comes to a condition only after both of its objects;
* `Audience.Backward`: relationships in a fitting order; `JoinPlan.scoped_flatFrom_iff`;
* **`Audience.flat_scope`**: what the conditions of a flat plan refer to.
-/

namespace Targeting

/-! ## Relationships between two objects -/

/-- A relationship names two different aliases, one for each of its ends. -/
def Relationship.Connects (r : Relationship) (label other : String) : Prop :=
  label ≠ other ∧ (r.first = some label ∧ r.second = some other ∨
    r.first = some other ∧ r.second = some label)

namespace Relationship

variable {r : Relationship} {label other : String}

instance : Decidable (r.Connects label other) := inferInstanceAs (Decidable (_ ∧ _))

theorem Connects.symm (h : r.Connects label other) : r.Connects other label :=
  ⟨h.1.symm, h.2.symm⟩

theorem Connects.mem_ends (h : r.Connects label other) : other ∈ r.ends := by
  rcases h.2 with ⟨hfirst, hsecond⟩ | ⟨hfirst, hsecond⟩
  · simp [ends, hsecond]
  · simp [ends, hfirst]

/-- **A relationship with two ends mentions these**, whatever its condition refers to. -/
theorem Connects.mentions_iff (h : r.Connects label other) {l : String} :
    r.mentions l = true ↔ l = label ∨ l = other := by
  rw [mentions_iff_mem_ends (List.ne_nil_of_mem h.mem_ends)]
  rcases h.2 with ⟨hfirst, hsecond⟩ | ⟨hfirst, hsecond⟩
  · simp [ends, hfirst, hsecond]
  · simp [ends, hfirst, hsecond, or_comm]

end Relationship

namespace Audience

/-- Every relationship names both of its ends. -/
def Paired (a : Audience) : Prop := ∀ r ∈ a.relationships, ∃ label other, r.Connects label other

/-- The condition of a relationship refers to no objects but those that the relationship mentions. -/
def KeepsToEnds (a : Audience) (r : Relationship) : Prop :=
  ∀ p ∈ a.objects, refersTo r.condition p.label = true → r.mentions p.label = true

/-- The first relationship that mentions an object connects it to an object before it. -/
def Backward (a : Audience) : Prop :=
  ∀ before p after r, a.objects = before ++ p :: after → before ≠ [] →
    JoinPlan.relationFor? a.relationships p = some r → ∃ q ∈ before, r.Connects p.label q.label

variable {a : Audience}

/-- **What mentions an object connects it to another one** of the audience. -/
theorem Paired.exists_other (hpaired : a.Paired) (hvalid : a.validate = .ok ()) {r : Relationship}
    (hr : r ∈ a.relationships) {p : Placement} (hp : r.mentions p.label = true) :
    ∃ q ∈ a.objects, r.Connects p.label q.label := by
  obtain ⟨label, other, hconnects⟩ := hpaired r hr
  have hother : ∃ other, r.Connects p.label other := by
    rcases hconnects.mentions_iff.mp hp with hlabel | hlabel
    · exact ⟨other, hlabel ▸ hconnects⟩
    · exact ⟨label, hlabel ▸ hconnects.symm⟩
  obtain ⟨other, hconnects⟩ := hother
  obtain ⟨q, hq, rfl⟩ := exists_label_of_validate hvalid hr hconnects.mem_ends
  exact ⟨q, hq, hconnects⟩

end Audience

/-! ## Plans -/

namespace JoinPlan

/-- What a clause has introduced when it comes to the condition of a join: the root, the objects of the
joins before it, and its own object. -/
def scope (plan : JoinPlan) (before : List Join) (j : Join) : List Placement :=
  plan.root :: (before ++ [j]).map Join.target

/-- When a clause comes to the condition of a join, the relationship connects the object of the join to one
that has been introduced before. -/
def Scoped (plan : JoinPlan) : Prop :=
  ∀ before j after, plan.joins = before ++ j :: after →
    ∃ q ∈ plan.root :: before.map Join.target, j.relationship.Connects j.target.label q.label

variable {rs : List Relationship} {others : List Placement}

theorem relationFor?_isSome {r : Relationship} (hr : r ∈ rs) {p : Placement}
    (h : r.mentions p.label = true) : ∃ r', relationFor? rs p = some r' := by
  cases hp : relationFor? rs p with
  | some r' => exact ⟨r', rfl⟩
  | none => exact absurd h (List.find?_eq_none.mp hp r hr)

theorem relationFor?_eq_some {r : Relationship} {p : Placement} (h : relationFor? rs p = some r) :
    r ∈ rs ∧ r.mentions p.label = true := by
  have hmentions := List.find?_some h
  exact ⟨List.mem_of_find?_eq_some h, hmentions⟩

/-- The joins of some objects, each by the first relationship that mentions it. -/
def joinsOf (rs : List Relationship) (ps : List Placement) : List Join :=
  ps.filterMap fun p => (relationFor? rs p).map (Join.mk p)

theorem mem_joinsOf {j : Join} : j ∈ joinsOf rs others ↔
    j.target ∈ others ∧ relationFor? rs j.target = some j.relationship := by
  rw [joinsOf, List.mem_filterMap]
  constructor
  · rintro ⟨p, hp, hj⟩
    obtain ⟨r, hr, rfl⟩ := Option.map_eq_some_iff.mp hj
    exact ⟨hp, hr⟩
  · rintro ⟨htarget, hr⟩
    exact ⟨j.target, htarget, Option.map_eq_some_iff.mpr ⟨_, hr, rfl⟩⟩

/-- **An object is joined exactly if some relationship mentions it.** -/
theorem mem_targets_joinsOf {p : Placement} : p ∈ (joinsOf rs others).map Join.target ↔
    p ∈ others ∧ ∃ r ∈ rs, r.mentions p.label = true := by
  rw [List.mem_map]
  constructor
  · rintro ⟨j, hj, rfl⟩
    obtain ⟨htarget, hr⟩ := mem_joinsOf.mp hj
    exact ⟨htarget, j.relationship, relationFor?_eq_some hr⟩
  · rintro ⟨hp, r, hr, hmentions⟩
    obtain ⟨r', hr'⟩ := relationFor?_isSome hr hmentions
    exact ⟨Join.mk p r', mem_joinsOf.mpr ⟨hp, hr'⟩, rfl⟩

/-- **The joins before that of an object** are those of the objects before it. -/
theorem joinsOf_eq_append_cons {before after : List Join} {j : Join}
    (h : joinsOf rs others = before ++ j :: after) : ∃ xs ys, others = xs ++ j.target :: ys ∧
      joinsOf rs xs = before ∧ relationFor? rs j.target = some j.relationship := by
  obtain ⟨xs, rest, rfl, hxs, hrest⟩ := List.filterMap_eq_append_iff.mp h
  obtain ⟨skipped, p, ys, rfl, hskipped, hp, _⟩ := List.filterMap_eq_cons_iff.mp hrest
  obtain ⟨r, hr, rfl⟩ := Option.map_eq_some_iff.mp hp
  refine ⟨xs ++ skipped, ys, (List.append_assoc ..).symm, ?_, hr⟩
  have hnone : joinsOf rs skipped = [] := List.filterMap_eq_nil_iff.mpr hskipped
  rw [joinsOf, List.filterMap_append, hxs]
  exact (congrArg (before ++ ·) hnone).trans (List.append_nil _)

theorem joinsOf_append_cons {xs ys : List Placement} {p : Placement} {r : Relationship}
    (h : relationFor? rs p = some r) :
    joinsOf rs (xs ++ p :: ys) = joinsOf rs xs ++ Join.mk p r :: joinsOf rs ys := by
  simp only [joinsOf, List.filterMap_append, List.filterMap_cons, h, Option.map_some]

variable {a : Audience} {root : Placement}

/-- **What a relationship mentions is never left out.** -/
theorem mem_objects_flatFrom (hobjects : a.objects = root :: others) {r : Relationship}
    (hr : r ∈ a.relationships) {q : Placement} (hq : q ∈ a.objects) (h : r.mentions q.label = true) :
    q ∈ (flatFrom root others a.relationships).objects := by
  rw [hobjects] at hq
  rcases List.mem_cons.mp hq with rfl | hq
  · exact List.mem_cons_self
  · exact List.mem_cons_of_mem _ (mem_targets_joinsOf.mpr ⟨hq, r, hr, h⟩)

/-- **A flat plan comes to both objects of a relationship in time** exactly if the first relationship that
mentions an object leads backwards. -/
theorem scoped_flatFrom_iff (hobjects : a.objects = root :: others) :
    (flatFrom root others a.relationships).Scoped ↔ a.Backward := by
  constructor
  · intro hscoped before p after r hparts hbefore hr
    obtain ⟨_, xs, rfl⟩ := List.exists_cons_of_ne_nil hbefore
    obtain ⟨rfl, rfl⟩ := List.cons.inj (hobjects.symm.trans hparts)
    obtain ⟨q, hq, hconnects⟩ := hscoped _ _ _ (joinsOf_append_cons hr)
    refine ⟨q, ?_, hconnects⟩
    rcases List.mem_cons.mp hq with rfl | hq
    · exact List.mem_cons_self
    · exact List.mem_cons_of_mem _ (mem_targets_joinsOf.mp hq).1
  · intro hbackward before j after hjoins
    obtain ⟨xs, ys, rfl, rfl, hr⟩ := joinsOf_eq_append_cons hjoins
    obtain ⟨q, hq, hconnects⟩ :=
      hbackward (root :: xs) j.target ys j.relationship hobjects (List.cons_ne_nil _ _) hr
    refine ⟨q, ?_, hconnects⟩
    rcases List.mem_cons.mp hq with rfl | hq
    · exact List.mem_cons_self
    -- What mentions an object before this one has joined it before.
    · have hmentions : j.relationship.mentions q.label = true :=
        hconnects.mentions_iff.mpr (Or.inr rfl)
      exact List.mem_cons_of_mem _
        (mem_targets_joinsOf.mpr ⟨hq, j.relationship, (relationFor?_eq_some hr).1, hmentions⟩)

/-- **In a scoped plan the objects that a relationship mentions are in scope** at its condition. -/
theorem Scoped.mem_scope {plan : JoinPlan} (h : plan.Scoped) (hvalid : a.validate = .ok ())
    (hdrawn : plan.DrawnFrom a) {before after : List Join} {j : Join}
    (hjoins : plan.joins = before ++ j :: after) {p : Placement} (hp : p ∈ a.objects)
    (hmentions : j.relationship.mentions p.label = true) : p ∈ plan.scope before j := by
  obtain ⟨q, hq, hconnects⟩ := h before j after hjoins
  have hmem : ∀ q ∈ plan.scope before j, q ∈ a.objects := by
    intro q hq
    apply hdrawn.objects
    rw [scope, List.map_append] at hq
    rw [objects, hjoins, List.map_append, List.map_cons]
    grind
  have hj : j.target ∈ plan.scope before j :=
    List.mem_cons_of_mem _ (List.mem_map_of_mem (by simp))
  have hother : q ∈ plan.scope before j := by
    rw [scope, List.map_append, ← List.cons_append]
    exact List.mem_append_left _ hq
  have hinj := List.inj_on_of_nodup_map (Audience.nodup_labels_of_validate hvalid)
  rcases hconnects.mentions_iff.mp hmentions with hlabel | hlabel
  · exact hinj hp (hmem _ hj) hlabel ▸ hj
  · exact hinj hp (hmem _ hother) hlabel ▸ hother

end JoinPlan

namespace Audience

variable {a : Audience}

/-- Between two objects there is only one way. -/
theorem Paired.backward (hpaired : a.Paired) (hvalid : a.validate = .ok ())
    (h : a.objects.length ≤ 2) : a.Backward := by
  intro before p after r hparts hbefore hr
  obtain ⟨q, hq, hconnects⟩ := hpaired.exists_other hvalid (JoinPlan.relationFor?_eq_some hr).1
    (JoinPlan.relationFor?_eq_some hr).2
  have hafter : after = [] := by
    have hlength := List.length_pos_iff.mpr hbefore
    rw [hparts, List.length_append, List.length_cons] at h
    exact List.eq_nil_of_length_eq_zero (by omega)
  rw [hparts, hafter] at hq
  rcases List.mem_append.mp hq with hq | hq
  · exact ⟨q, hq, hconnects⟩
  · rw [List.mem_singleton.mp hq] at hconnects
    exact absurd rfl hconnects.1

/-- **Flat plans of valid audiences whose relationships name both of their ends.** Each join connects its
object to another one of the plan. This other one has always been introduced before exactly if the first
relationship that mentions an object leads backwards, as it does between two objects. Conditions that
keep to the ends of their relationships refer only to what the plan introduces and, in the latter case,
only to what it has introduced before. -/
theorem flat_scope (hvalid : a.validate = .ok ()) (hpaired : a.Paired) :
    ∃ plan, JoinPlan.flat a = .ok plan ∧
      (∀ j ∈ plan.joins, ∃ q ∈ plan.objects, j.relationship.Connects j.target.label q.label) ∧
      (plan.Scoped ↔ a.Backward) ∧ (a.objects.length ≤ 2 → plan.Scoped) ∧
      (∀ before j after, plan.joins = before ++ j :: after → a.KeepsToEnds j.relationship →
        ∀ p ∈ a.objects, refersTo j.relationship.condition p.label = true →
          p ∈ plan.objects ∧ (plan.Scoped → p ∈ plan.scope before j)) := by
  obtain ⟨root, others, hobjects⟩ := List.exists_cons_of_ne_nil (checks_of_validate hvalid).1
  have hflat : JoinPlan.flat a = .ok (JoinPlan.flatFrom root others a.relationships) := by
    rw [JoinPlan.flat, hobjects]
  have hdrawn := JoinPlan.drawnFrom_build (show JoinPlan.build a .flat = _ from hflat)
  have hscoped := JoinPlan.scoped_flatFrom_iff hobjects
  refine ⟨_, hflat, fun j hj => ?_, hscoped, fun h => hscoped.mpr (hpaired.backward hvalid h),
    fun before j after hjoins hkeeps p hp hrefers => ?_⟩
  · obtain ⟨hr, hmentions⟩ := JoinPlan.relationFor?_eq_some (JoinPlan.mem_joinsOf.mp hj).2
    obtain ⟨q, hq, hconnects⟩ := hpaired.exists_other hvalid hr hmentions
    exact ⟨q, JoinPlan.mem_objects_flatFrom hobjects hr hq (hconnects.mentions_iff.mpr (Or.inr rfl)),
      hconnects⟩
  · have hr := hdrawn.relationships j (hjoins ▸ List.mem_append_right _ List.mem_cons_self)
    have hmentions := hkeeps p hp hrefers
    exact ⟨JoinPlan.mem_objects_flatFrom hobjects hr hp hmentions,
      fun h => h.mem_scope hvalid hdrawn hjoins hp hmentions⟩

/-- Companies, their contacts and events, with relationships between the events and the contacts and then
between the companies and the contacts. -/
def crossed : Audience where
  objects := Sample.audience.objects ++ [{ object := { table := "events" }, label := "e" }]
  relationships :=
    [{ first := some "p", second := some "e", condition := "p.event_id = e.event_id" },
      { first := some "c", second := some "p", condition := "c.company_id = p.company_id" }]

/-- **The contacts are joined by what ties them to the events**, which come only after them. -/
theorem crossed_flat_not_scoped : crossed.validate = .ok () ∧ crossed.Paired ∧
    ∃ plan j, JoinPlan.flat crossed = .ok plan ∧ plan.joins.head? = some j ∧ ¬ plan.Scoped ∧
      (∃ p ∈ plan.objects, refersTo j.relationship.condition p.label = true ∧ p ∉ plan.scope [] j) ∧
      plan.clause = "FROM companies c INNER JOIN contacts p ON p.event_id = e.event_id" ++
        " INNER JOIN events e ON p.event_id = e.event_id" := by
  refine ⟨rfl, ?_, _, _, rfl, rfl, ?_, ?_, rfl⟩
  · exact List.forall_mem_cons.mpr ⟨⟨"p", "e", by decide⟩, List.forall_mem_singleton.mpr
      ⟨"c", "p", by decide⟩⟩
  · intro hscoped
    obtain ⟨q, hq, hconnects⟩ := hscoped [] _ _ rfl
    rw [List.map_nil, List.mem_singleton] at hq
    rw [hq] at hconnects
    revert hconnects
    decide
  · exact ⟨{ object := { table := "events" }, label := "e" }, by decide +kernel⟩

/-- The same objects with the relationships the other way round, and events in the region of the company. -/
def chained : Audience :=
  { crossed with
    relationships :=
      [{ first := some "c", second := some "p", condition := "c.company_id = p.company_id" },
        { first := some "p", second := some "e",
          condition := "p.event_id = e.event_id AND c.region = e.region" }] }

/-- Between companies, contacts and events in a row, the flat plan is scoped. The condition of the first join
keeps to its ends, though that of the second one does not, and refers only to what has been introduced. -/
theorem chained_flat_scope : chained.validate = .ok () ∧ chained.Paired ∧
    (∃ r ∈ chained.relationships, ¬ chained.KeepsToEnds r) ∧
    ∃ plan j k, JoinPlan.flat chained = .ok plan ∧ plan.joins = [j, k] ∧ plan.Scoped ∧
      chained.KeepsToEnds j.relationship ∧
      ∀ p ∈ chained.objects, refersTo j.relationship.condition p.label = true →
        p ∈ plan.scope [] j := by
  have hvalid : chained.validate = .ok () := rfl
  have hpaired : chained.Paired := List.forall_mem_cons.mpr ⟨⟨"c", "p", by decide⟩,
    List.forall_mem_singleton.mpr ⟨"p", "e", by decide⟩⟩
  have hbackward : chained.Backward := by
    intro before p after r hparts hbefore hr
    match before with
    | [_] =>
      cases hparts
      cases hr
      exact ⟨_, List.mem_cons_self, by decide⟩
    | [_, _] =>
      cases hparts
      cases hr
      exact ⟨_, List.mem_cons_of_mem _ List.mem_cons_self, by decide⟩
    | _ :: _ :: _ :: before => cases before <;> cases hparts
  have hstrays : ¬ chained.KeepsToEnds
      { first := some "p", second := some "e",
        condition := "p.event_id = e.event_id AND c.region = e.region" } := by
    unfold KeepsToEnds
    decide +kernel
  obtain ⟨plan, hplan, _, hscoped, _, hrefers⟩ := chained.flat_scope hvalid hpaired
  have hjoins : ∃ j k, plan.joins = [j, k] ∧ chained.KeepsToEnds j.relationship := by
    cases hplan
    refine ⟨_, _, rfl, ?_⟩
    unfold KeepsToEnds
    decide +kernel
  obtain ⟨j, k, hjoins, hkeeps⟩ := hjoins
  exact ⟨hvalid, hpaired, ⟨_, List.mem_cons_of_mem _ List.mem_cons_self, hstrays⟩, plan, j, k, hplan,
    hjoins, hscoped.mpr hbackward, hkeeps,
    fun p hp h => (hrefers [] j [k] hjoins hkeeps p hp h).2 (hscoped.mpr hbackward)⟩

end Audience

end Targeting
