import Targeting.Proofs.Queries
import Targeting.Proofs.Token

/-!
# Vetted audiences

What is known of the objects of an audience that passes its checks. Whatever a query is built from is
taken from the audience: the objects that play roles, those that are joined, and the fields of both.

* `Placement.Vetted`: the alias, the table, the primary key and the columns of an object are names;
* **`Audience.vetted_of_validate`**: the objects of a valid audience are vetted;
  `Audience.nodup_labels_of_validate`: no two of them share an alias, and
  `Audience.exists_label_of_validate`: relationships name only theirs;
* `Audience.mem_of_findRole`, `Audience.mem_of_parts`: the objects that play roles are among them;
  `Audience.key_eq_error`: the join key that is not usable is that of the settings;
* `JoinPlan.DrawnFrom`, **`JoinPlan.drawnFrom_build`**: and so is everything that a plan joins;
* `Condition.Named`: the columns of a condition are names, `JoinPlan.named_conjunction`;
* `Stage.Vetted`, **`Audience.vetted_of_stage`**: so are all names that a stage is built from.
-/

namespace Targeting

/-- The names that an object brings into a query are identifiers; its table may be several of them with
dots in between. -/
structure Placement.Vetted (p : Placement) : Prop where
  label : isIdentifier p.label = true
  table : isQualified p.object.table = true
  primaryKey : isIdentifier p.object.primaryKey = true
  columns : ∀ f ∈ p.object.fields, isIdentifier f.columnName = true

theorem Placement.vetted_of_problem? {seen : List String} {p : Placement} (h : p.problem? seen = none) :
    p.Vetted := by
  unfold problem? at h
  split at h
  · cases h
  next hlabel =>
  split at h
  · cases h
  split at h
  · cases h
  next htable =>
  split at h
  · cases h
  next hkey =>
  have hcolumns := List.find?_eq_none.mp (Option.map_eq_none_iff.mp h)
  constructor
  · simpa using hlabel
  · simpa using htable
  · simpa using hkey
  · intro f hf
    simpa using hcolumns f hf

theorem Placement.unseen_of_problem? {seen : List String} {p : Placement} (h : p.problem? seen = none) :
    p.label ∉ seen := by
  unfold problem? at h
  split at h
  · cases h
  split at h
  · cases h
  · next hseen => simpa using hseen

namespace Audience

variable {a : Audience} {o : CompilerSettings} {role : Role} {e : Error}

theorem vetted_of_objectProblem? {seen : List String} {ps : List Placement}
    (h : objectProblem? seen ps = none) : ∀ p ∈ ps, p.Vetted := by
  induction ps generalizing seen with
  | nil =>
    intro p hp
    cases hp
  | cons p rest ih =>
    rw [objectProblem?] at h
    cases hproblem : p.problem? seen with
    | some problem =>
      rw [hproblem] at h
      cases h
    | none =>
      rw [hproblem] at h
      exact List.forall_mem_cons.mpr ⟨Placement.vetted_of_problem? hproblem, ih h⟩

/-- The aliases of objects without a problem are all different, and none of them was seen before. -/
theorem nodup_labels_of_objectProblem? {seen : List String} {ps : List Placement}
    (h : objectProblem? seen ps = none) :
    (ps.map Placement.label).Nodup ∧ ∀ p ∈ ps, p.label ∉ seen := by
  induction ps generalizing seen with
  | nil => exact ⟨List.nodup_nil, List.forall_mem_nil _⟩
  | cons p rest ih =>
    rw [objectProblem?] at h
    cases hproblem : p.problem? seen with
    | some problem =>
      rw [hproblem] at h
      cases h
    | none =>
      rw [hproblem] at h
      obtain ⟨hnodup, hfresh⟩ := ih h
      refine ⟨List.nodup_cons.mpr ⟨?_, hnodup⟩, List.forall_mem_cons.mpr ⟨?_, ?_⟩⟩
      · intro hmem
        obtain ⟨q, hq, hlabel⟩ := List.mem_map.mp hmem
        exact hfresh q hq (hlabel ▸ List.mem_cons_self)
      · exact Placement.unseen_of_problem? hproblem
      · exact fun q hq hmem => hfresh q hq (List.mem_cons_of_mem _ hmem)

/-- The checks that a valid audience passes. -/
theorem checks_of_validate (h : a.validate = .ok ()) :
    a.objects ≠ [] ∧ objectProblem? [] a.objects = none ∧ a.keyProblem? = none ∧
      a.endProblem? = none := by
  have hnone : a.problem? = none := by
    unfold validate at h
    cases hproblem : a.problem? with
    | none => rfl
    | some problem =>
      rw [hproblem] at h
      cases h
  unfold problem? at hnone
  split at hnone
  · cases hnone
  · next hempty =>
    rw [Option.orElse_eq_or, Option.or_eq_none_iff, Option.orElse_eq_or,
      Option.or_eq_none_iff] at hnone
    exact ⟨fun hnil => hempty (List.isEmpty_iff.mpr hnil), hnone.1, hnone.2.1, hnone.2.2⟩

/-- **The objects of a valid audience are vetted.** -/
theorem vetted_of_validate (h : a.validate = .ok ()) : ∀ p ∈ a.objects, p.Vetted :=
  vetted_of_objectProblem? (checks_of_validate h).2.1

/-- **The aliases of a valid audience are all different.** -/
theorem nodup_labels_of_validate (h : a.validate = .ok ()) :
    (a.objects.map Placement.label).Nodup :=
  (nodup_labels_of_objectProblem? (checks_of_validate h).2.1).1

/-- **The aliases that a relationship names** are those of objects. -/
theorem exists_label_of_validate (h : a.validate = .ok ()) {r : Relationship} (hr : r ∈ a.relationships)
    {label : String} (hlabel : label ∈ r.ends) : ∃ p ∈ a.objects, p.label = label := by
  have hends := Option.map_eq_none_iff.mp (checks_of_validate h).2.2.2
  have hfound := List.find?_eq_none.mp hends label (List.mem_flatMap.mpr ⟨r, hr, hlabel⟩)
  rw [Bool.not_eq_true, Bool.not_eq_false', List.contains_iff_mem] at hfound
  exact List.mem_map.mp hfound

/-! ## Roles -/

theorem mem_of_findRole {p : Placement} (h : a.findRole o role = some p) : p ∈ a.objects := by
  rw [findRole, Option.orElse_eq_or] at h
  rcases Option.or_eq_some_iff.mp h with h | ⟨_, h⟩
  · exact List.mem_of_find?_eq_some h
  · exact List.mem_of_find?_eq_some h

theorem mem_of_parts {parts : Parts} (h : a.parts o = .ok parts) :
    parts.parent ∈ a.objects ∧ parts.child ∈ a.objects :=
  (parts_eq_ok h).imp mem_of_findRole mem_of_findRole

theorem isIdentifier_of_key {key : String} (h : a.key o = .ok key) : isIdentifier key = true := by
  unfold Audience.key at h
  simp only at h
  split at h
  · next hkey =>
    cases h
    exact hkey
  · cases h

/-- The join key of a valid audience is usable, so it is the default one that is not. -/
theorem key_eq_error (hvalid : a.validate = .ok ()) (h : a.key o = .error e) :
    a.joinKey = none ∧ e = .configuration (.invalidJoinKey o.defaultJoinKey) := by
  have hkey := (checks_of_validate hvalid).2.2.1
  unfold Audience.key at h
  unfold keyProblem? at hkey
  cases hjoin : a.joinKey with
  | none =>
    rw [hjoin] at h
    simp only [Option.getD_none] at h
    split at h
    · cases h
    · cases h
      exact ⟨rfl, rfl⟩
  | some key =>
    rw [hjoin] at h hkey
    simp only [Option.getD_some] at h hkey
    split at hkey
    · next hname =>
      rw [if_pos hname] at h
      cases h
    · cases hkey

end Audience

/-! ## Plans -/

namespace JoinPlan

/-- The objects that a plan selects from, and the relationships by which it joins them, are those of an
audience. -/
structure DrawnFrom (plan : JoinPlan) (a : Audience) : Prop where
  root : plan.root ∈ a.objects
  targets : ∀ j ∈ plan.joins, j.target ∈ a.objects
  relationships : ∀ j ∈ plan.joins, j.relationship ∈ a.relationships

theorem mem_of_mem_firsts {ps : List Placement} {p : Placement} (h : p ∈ firsts ps) : p ∈ ps := by
  induction ps with
  | nil => cases h
  | cons q rest ih =>
    rcases List.mem_cons.mp h with rfl | h
    · exact List.mem_cons_self
    · exact List.mem_cons_of_mem _ (ih (List.mem_of_mem_filter h))

/-- One step joins pending objects by relationships that there are, and leaves pending ones. -/
theorem mem_of_mem_joinsFrom (label : String) (rs : List Relationship) (ps : List Placement) :
    (∀ j ∈ (joinsFrom label rs ps).1, j.target ∈ ps ∧ j.relationship ∈ rs) ∧
      ∀ p ∈ (joinsFrom label rs ps).2, p ∈ ps := by
  induction rs generalizing ps with
  | nil =>
    constructor
    · intro j hj
      cases hj
    · exact fun p hp => hp
  | cons r rs ih =>
    rw [joinsFrom]
    split
    · obtain ⟨hjoins, hrest⟩ := ih (unreached r ps)
      constructor
      · intro j hj
        rcases List.mem_append.mp hj with hj | hj
        · obtain ⟨p, hp, rfl⟩ := List.mem_map.mp hj
          exact ⟨List.mem_of_mem_filter (mem_of_mem_firsts hp), List.mem_cons_self⟩
        · obtain ⟨htarget, hrelationship⟩ := hjoins j hj
          exact ⟨List.mem_of_mem_filter htarget, List.mem_cons_of_mem _ hrelationship⟩
      · intro p hp
        exact List.mem_of_mem_filter (hrest p hp)
    · obtain ⟨hjoins, hrest⟩ := ih ps
      exact ⟨fun j hj => ⟨(hjoins j hj).1, List.mem_cons_of_mem _ (hjoins j hj).2⟩, hrest⟩

theorem mem_of_mem_walk {rs : List Relationship} {queue pending : List Placement} :
    ∀ j ∈ (walk rs queue pending).1, j.target ∈ pending ∧ j.relationship ∈ rs := by
  induction queue, pending using walk.induct rs with
  | case1 pending =>
    intro j hj
    rw [walk] at hj
    cases hj
  | case2 pending p queue step _ _ _ ih =>
    intro j hj
    obtain ⟨hjoins, hrest⟩ := mem_of_mem_joinsFrom p.label rs pending
    rw [walk] at hj
    rcases List.mem_append.mp hj with hj | hj
    · exact hjoins j hj
    · obtain ⟨htarget, hrelationship⟩ := ih j hj
      exact ⟨hrest _ htarget, hrelationship⟩

/-- **A plan is drawn from its audience.** -/
theorem drawnFrom_build {a : Audience} {strategy : JoinStrategy} {plan : JoinPlan}
    (h : build a strategy = .ok plan) : plan.DrawnFrom a := by
  cases strategy with
  | flat =>
    rw [build, flat] at h
    split at h
    · cases h
    next root others hobjects =>
    cases h
    have hjoins : ∀ j ∈ (flatFrom root others a.relationships).joins,
        j.target ∈ others ∧ j.relationship ∈ a.relationships := by
      intro j hj
      obtain ⟨p, hp, hj⟩ := List.mem_filterMap.mp hj
      obtain ⟨r, hr, rfl⟩ := Option.map_eq_some_iff.mp hj
      exact ⟨hp, List.mem_of_find?_eq_some hr⟩
    constructor
    · rw [hobjects]
      exact List.mem_cons_self
    · intro j hj
      rw [hobjects]
      exact List.mem_cons_of_mem _ (hjoins j hj).1
    · exact fun j hj => (hjoins j hj).2
  | graph =>
    rw [build, graph] at h
    split at h
    · cases h
    next root others hobjects =>
    unfold graphFrom at h
    simp only at h
    split at h
    · cases h
      constructor
      · rw [hobjects]
        exact List.mem_cons_self
      · intro j hj
        rw [hobjects]
        exact List.mem_of_mem_filter (mem_of_mem_walk j hj).1
      · exact fun j hj => (mem_of_mem_walk j hj).2
    · cases h

theorem DrawnFrom.objects {plan : JoinPlan} {a : Audience} (h : plan.DrawnFrom a) :
    ∀ p ∈ plan.objects, p ∈ a.objects := by
  refine List.forall_mem_cons.mpr ⟨h.root, fun p hp => ?_⟩
  obtain ⟨j, hj, rfl⟩ := List.mem_map.mp hp
  exact h.targets j hj

end JoinPlan

/-! ## Fields -/

namespace Placement

variable {p : Placement}

theorem AsksAll.mem_fields {fs : List Filter} {asked : List (Field × Comparison)}
    (h : p.AsksAll fs asked) : ∀ q ∈ asked, q.1 ∈ p.object.fields := by
  induction h with
  | nil =>
    intro q hq
    cases hq
  | cons hasks _ ih =>
    exact List.forall_mem_cons.mpr ⟨(resolveFor_eq_ok_iff.mp hasks.resolved).1.mem, ih⟩

end Placement

/-! ## Columns -/

theorem ne_dot_of_isNameChar {c : Char} (h : isNameChar c = true) : c ≠ '.' := by
  rintro rfl
  exact absurd h (by decide)

theorem dotParts_ne_nil (cs : List Char) : dotParts cs ≠ [] := by
  cases cs with
  | nil => exact List.cons_ne_nil _ _
  | cons c cs =>
    rw [dotParts]
    split
    · exact List.cons_ne_nil _ _
    · split
      · exact List.cons_ne_nil _ _
      · exact List.cons_ne_nil _ _

theorem dotParts_of_no_dot {cs : List Char} (h : ∀ c ∈ cs, c ≠ '.') : dotParts cs = [cs] := by
  induction cs with
  | nil => rfl
  | cons c cs ih =>
    obtain ⟨hc, hcs⟩ := List.forall_mem_cons.mp h
    rw [dotParts, ih hcs]
    simp only [if_neg hc]

theorem dotParts_append_dot {cs : List Char} (h : ∀ c ∈ cs, c ≠ '.') (ds : List Char) :
    dotParts (cs ++ '.' :: ds) = cs :: dotParts ds := by
  induction cs with
  | nil =>
    obtain ⟨part, parts, hparts⟩ := List.exists_cons_of_ne_nil (dotParts_ne_nil ds)
    rw [List.nil_append, dotParts, hparts]
    rfl
  | cons c cs ih =>
    obtain ⟨hc, hcs⟩ := List.forall_mem_cons.mp h
    rw [List.cons_append, dotParts, ih hcs]
    simp only [if_neg hc]

theorem isIdentifierChars_no_dot {cs : List Char} (h : isIdentifierChars cs = true) :
    ∀ c ∈ cs, c ≠ '.' :=
  fun c hc => ne_dot_of_isNameChar (isIdentifierChars_chars h c hc)

theorem isQualified_of_isIdentifier {s : String} (h : isIdentifier s = true) : isQualified s = true := by
  rw [isQualified, dotParts_of_no_dot (isIdentifierChars_no_dot h), List.all_cons, List.all_nil,
    Bool.and_true]
  exact h

/-- A column under an alias is a name with a dot in it. -/
theorem Placement.isQualified_qualify {p : Placement} {column : String}
    (hlabel : isIdentifier p.label = true) (hcolumn : isIdentifier column = true) :
    isQualified (p.qualify column) = true := by
  have hchars : (p.qualify column).toList = p.label.toList ++ '.' :: column.toList := by
    simp [qualify]
  rw [isQualified, hchars, dotParts_append_dot (isIdentifierChars_no_dot hlabel), List.all_cons,
    Bool.and_eq_true]
  exact ⟨hlabel, isQualified_of_isIdentifier hcolumn⟩

theorem Placement.Vetted.isQualified_column {p : Placement} (h : p.Vetted) {f : Field}
    (hf : f ∈ p.object.fields) : isQualified (p.column f) = true :=
  Placement.isQualified_qualify h.label (h.columns f hf)

namespace Condition

/-- The columns that a condition asks about are names. -/
def Named (c : Condition) : Prop := ∀ l ∈ c.leaves, isQualified l.1 = true

theorem Named.conjunction {cs : List Condition} (h : ∀ c ∈ cs, c.Named) :
    (Condition.conjunction cs).Named := by
  intro l hl
  rw [leaves_conjunction] at hl
  obtain ⟨c, hc, hl⟩ := List.mem_flatMap.mp hl
  exact h c hc l hl

end Condition

theorem Placement.Vetted.named_condition {p : Placement} (hp : p.Vetted) {o : CompilerSettings}
    {list : String} {fs : List Filter} {c : Condition} {ws : List Warning}
    (h : p.condition o list fs = .ok (c, ws)) : c.Named := by
  obtain ⟨_, _, asked, hall, rfl⟩ := p.condition_eq_ok_iff.mp h
  intro l hl
  rw [hall.leaves_grouped] at hl
  obtain ⟨q, hq, rfl⟩ := List.mem_map.mp hl
  exact hp.isQualified_column (hall.mem_fields q hq)

/-- The conditions of a listing ask about named columns. -/
theorem JoinPlan.named_condition {plan : JoinPlan} {a : Audience} (hvalid : a.validate = .ok ())
    {o : CompilerSettings} {role : Role} {fs : List Filter} {cs : List Condition} {ws : List Warning}
    (h : plan.condition o a role fs = .ok (cs, ws)) : ∀ c ∈ cs, c.Named := by
  rcases condition_eq_ok h with ⟨_, rfl, _⟩ | ⟨_, p, c, hp, hc, rfl⟩
  · intro c hc
    cases hc
  · have hmem : p ∈ a.objects := Audience.mem_of_findRole (target_eq_ok hp).1
    intro d hd
    rw [List.mem_singleton.mp hd]
    exact (Audience.vetted_of_validate hvalid p hmem).named_condition hc

theorem JoinPlan.named_conjunction {plan : JoinPlan} {a : Audience} (hvalid : a.validate = .ok ())
    {o : CompilerSettings} {fs gs : List Filter} {r r' : Role} {cs ds : List Condition}
    {ws ws' : List Warning} (hcs : plan.condition o a r fs = .ok (cs, ws))
    (hds : plan.condition o a r' gs = .ok (ds, ws')) : (Condition.conjunction (cs ++ ds)).Named :=
  .conjunction (List.forall_mem_append.mpr ⟨named_condition hvalid hcs, named_condition hvalid hds⟩)

/-- All names that counts and previews are built from are vetted. -/
structure Stage.Vetted (s : Stage) : Prop where
  parent : s.parts.parent.Vetted
  child : s.parts.child.Vetted
  key : isIdentifier s.key = true
  parentCondition : s.parentCondition.Named
  childCondition : s.childCondition.Named

/-- **A stage that is set up is vetted.** -/
theorem Audience.vetted_of_stage {a : Audience} {o : CompilerSettings} {fs : FilterSet} {s : Stage}
    (h : a.stage o fs = .ok s) : s.Vetted := by
  obtain ⟨hvalid, hparts, hkey, _, _, hparent, hchild, _⟩ := stage_eq_ok h
  obtain ⟨hp, hc⟩ := mem_of_parts hparts
  have hp : s.parts.parent.Vetted := vetted_of_validate hvalid _ hp
  have hc : s.parts.child.Vetted := vetted_of_validate hvalid _ hc
  exact ⟨hp, hc, isIdentifier_of_key hkey, hp.named_condition hparent, hc.named_condition hchild⟩

end Targeting
