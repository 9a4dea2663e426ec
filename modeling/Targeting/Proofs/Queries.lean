import Targeting.Proofs.Compilation
import Targeting.Proofs.Statements

/-!
# What queries consist of

A query that compiles is put together from the parts that its steps yield: the plan of the joins and the
conditions of both lists for a listing, and a stage for counts and previews. One that does not compile
fails at one of these steps.

* `JoinPlan.target_eq_ok`, `JoinPlan.condition_eq_ok`: the condition for a role in a listing;
* `Audience.basis_eq_ok`, **`Audience.listing_eq_ok`**, **`Audience.listingStatement_eq_ok`**: the parts
  of a listing, and of its text;
* **`Audience.stage_eq_ok`**: the parts of counts and previews; `Audience.parts_of_findRole`: their parent
  and their child; `Audience.countsStatement_eq_ok_iff`, `Audience.companyStatement_eq_ok_iff`,
  `Audience.contactStatement_eq_ok_iff`: their texts;
* `JoinPlan.build_eq_error`, `JoinPlan.condition_eq_error`, `Audience.parts_eq_error`: how a step fails;
  `Audience.listing_eq_error`, `Audience.stage_eq_error`: at which step a query fails.
-/

namespace Targeting

/-! ## Listings -/

namespace JoinPlan

variable {plan : JoinPlan} {o : CompilerSettings} {a : Audience} {role : Role} {e : Error}

theorem target_eq_ok {p : Placement} (h : plan.target o a role = .ok p) :
    a.findRole o role = some p ∧ plan.includes p.label = true := by
  unfold target at h
  split at h
  · cases h
  · next q hq =>
    split at h
    · next hin =>
      cases h
      exact ⟨hq, hin⟩
    · cases h

/-- The condition for a role: there is none without filters. -/
theorem condition_eq_ok {fs : List Filter} {cs : List Condition} {ws : List Warning}
    (h : plan.condition o a role fs = .ok (cs, ws)) :
    (fs = [] ∧ cs = [] ∧ ws = []) ∨ (fs ≠ [] ∧ ∃ p c, plan.target o a role = .ok p ∧
      p.condition o role.listName fs = .ok (c, ws) ∧ cs = [c]) := by
  unfold condition at h
  split at h
  · next hfs =>
    cases h
    exact Or.inl ⟨List.isEmpty_iff.mp hfs, rfl, rfl⟩
  · next hfs =>
    obtain ⟨p, hp, h⟩ := bind_eq_ok_iff.mp h
    obtain ⟨⟨c, ws'⟩, hc, h⟩ := bind_eq_ok_iff.mp h
    cases h
    exact Or.inr ⟨fun hnil => hfs (List.isEmpty_iff.mpr hnil), p, c, hp, hc, rfl⟩

theorem condition_of_filters {fs : List Filter} {cs : List Condition} {ws : List Warning}
    (h : plan.condition o a role fs = .ok (cs, ws)) (hfs : fs ≠ []) : ∃ p c,
      a.findRole o role = some p ∧ p.condition o role.listName fs = .ok (c, ws) ∧ cs = [c] := by
  rcases condition_eq_ok h with ⟨hnil, _, _⟩ | ⟨_, p, c, hp, hc, hcs⟩
  · exact absurd hnil hfs
  · exact ⟨p, c, (target_eq_ok hp).1, hc, hcs⟩

theorem build_eq_error {strategy : JoinStrategy} (h : build a strategy = .error e) :
    e = .configuration .noObjects ∨
      ∃ object label root, e = .configuration (.notConnected object label root) := by
  cases strategy with
  | flat =>
    rw [build, flat] at h
    split at h
    · cases h
      exact Or.inl rfl
    · cases h
  | graph =>
    rw [build, graph] at h
    split at h
    · cases h
      exact Or.inl rfl
    · unfold graphFrom at h
      simp only at h
      split at h
      · cases h
      · cases h
        exact Or.inr ⟨_, _, _, rfl⟩

/-- Filters that an object can be asked fail in a listing only where the object is not joined. -/
theorem condition_eq_error {fs : List Filter} {p : Placement} {c : Condition × List Warning}
    (hrole : a.findRole o role = some p) (hc : p.condition o role.listName fs = .ok c)
    (h : plan.condition o a role fs = .error e) : plan.includes p.label = false ∧
      e = .configuration (.targetNotJoined role p.object.name p.label) := by
  unfold condition at h
  split at h
  · cases h
  rcases bind_eq_error_iff.mp h with h | ⟨q, hq, h⟩
  · unfold target at h
    rw [hrole] at h
    simp only at h
    split at h
    · cases h
    · next hin =>
      cases h
      exact ⟨Bool.eq_false_iff.mpr hin, rfl⟩
  · obtain rfl : q = p := Option.some.inj ((target_eq_ok hq).1.symm.trans hrole)
    rcases bind_eq_error_iff.mp h with h | ⟨⟨d, ws⟩, _, h⟩
    · rw [hc] at h
      cases h
    · cases h

end JoinPlan

namespace Audience

variable {a : Audience} {o : CompilerSettings} {fs : FilterSet} {e : Error}

/-- **What a listing is built from** is a plan with the conditions of both lists. -/
theorem basis_eq_ok {s : Basis} (h : a.basis o fs = .ok s) :
    ∃ company contact w₁ w₂, a.validate = .ok () ∧ JoinPlan.build a o.joinStrategy = .ok s.plan ∧
      s.plan.condition o a .parent fs.company = .ok (company, w₁) ∧
      s.plan.condition o a .child fs.contact = .ok (contact, w₂) ∧
      s.condition = .conjunction (company ++ contact) ∧ s.warnings = s.plan.warnings ++ w₁ ++ w₂ := by
  unfold basis at h
  obtain ⟨⟨⟩, hvalid, h⟩ := bind_eq_ok_iff.mp h
  obtain ⟨plan, hplan, h⟩ := bind_eq_ok_iff.mp h
  obtain ⟨⟨company, w₁⟩, hcompany, h⟩ := bind_eq_ok_iff.mp h
  obtain ⟨⟨contact, w₂⟩, hcontact, h⟩ := bind_eq_ok_iff.mp h
  cases h
  exact ⟨company, contact, w₁, w₂, hvalid, hplan, hcompany, hcontact, rfl, rfl⟩

/-- **A listing that compiles** selects from a plan, under the conditions of both lists. -/
theorem listing_eq_ok {limit : Option Nat} {q : Query} (h : a.listing o fs limit = .ok q) :
    ∃ plan company contact w₁ w₂, a.validate = .ok () ∧
      JoinPlan.build a o.joinStrategy = .ok plan ∧
      plan.condition o a .parent fs.company = .ok (company, w₁) ∧
      plan.condition o a .child fs.contact = .ok (contact, w₂) ∧
      q = { sql := .text plan.listingHead ::
              ((Condition.conjunction (company ++ contact)).whereClause ++ limitClause limit),
            warnings := plan.warnings ++ w₁ ++ w₂ } := by
  obtain ⟨s, hs, rfl⟩ := map_eq_ok_iff.mp h
  obtain ⟨company, contact, w₁, w₂, hvalid, hplan, hcompany, hcontact, hcondition, hwarnings⟩ :=
    basis_eq_ok hs
  refine ⟨s.plan, company, contact, w₁, w₂, hvalid, hplan, hcompany, hcontact, ?_⟩
  rw [Basis.query, hcondition, hwarnings]

/-- **Why a listing fails**: the audience is not valid, it cannot be joined, or a condition fails. -/
theorem listing_eq_error {limit : Option Nat} (h : a.listing o fs limit = .error e) :
    a.validate = .error e ∨ JoinPlan.build a o.joinStrategy = .error e ∨
      ∃ plan, JoinPlan.build a o.joinStrategy = .ok plan ∧
        (plan.condition o a .parent fs.company = .error e ∨
          plan.condition o a .child fs.contact = .error e) := by
  have h := map_eq_error_iff.mp h
  unfold basis at h
  rcases bind_eq_error_iff.mp h with h | ⟨⟨⟩, _, h⟩
  · exact Or.inl h
  rcases bind_eq_error_iff.mp h with h | ⟨plan, hplan, h⟩
  · exact Or.inr (Or.inl h)
  refine Or.inr (Or.inr ⟨plan, hplan, ?_⟩)
  rcases bind_eq_error_iff.mp h with h | ⟨⟨c, ws⟩, _, h⟩
  · exact Or.inl h
  rcases bind_eq_error_iff.mp h with h | ⟨⟨d, ws'⟩, _, h⟩
  · exact Or.inr h
  · cases h

theorem textWith_listing (limit : Option Nat) (w : Nat → Value → String) (head : String)
    (clause : Sql) : Sql.textWith w 1 (.text head :: (clause ++ limitClause limit)) =
      head ++ clause.textWith w 1 ++ limit.elim "" fun n => " LIMIT " ++ toString n := by
  rw [Sql.textWith, Sql.textWith_append, String.append_assoc]
  cases limit with
  | none => rfl
  | some n => simp only [limitClause, Sql.textWith, String.append_empty, Option.elim]

/-- **The text of a listing that compiles**: its head, the clause of both lists and its end. -/
theorem listingStatement_eq_ok {o : CompileOptions} {limit : Option Nat} {s : Statement}
    (h : a.listingStatement fs limit o = .ok s) : ∃ plan company contact w₁ w₂,
      a.validate = .ok () ∧ JoinPlan.build a o.compiler.joinStrategy = .ok plan ∧
      plan.condition o.compiler a .parent fs.company = .ok (company, w₁) ∧
      plan.condition o.compiler a .child fs.contact = .ok (contact, w₂) ∧
      s.sql = plan.listingHead ++ (Condition.conjunction (company ++ contact)).whereClause.textWith
        (Sql.mark o.dialect o.compiler.valueMode) 1 ++
          limit.elim "" fun n => " LIMIT " ++ toString n := by
  rw [listingStatement_eq] at h
  obtain ⟨q, hq, rfl⟩ := map_eq_ok_iff.mp h
  obtain ⟨plan, company, contact, w₁, w₂, hvalid, hplan, hcompany, hcontact, rfl⟩ := listing_eq_ok hq
  refine ⟨plan, company, contact, w₁, w₂, hvalid, hplan, hcompany, hcontact, ?_⟩
  exact (Sql.write_text o.dialect o.compiler.valueMode _).trans (textWith_listing limit _ _ _)

theorem operands_listing (limit : Option Nat) (head : String) (clause : Sql) :
    Sql.operands (.text head :: (clause ++ limitClause limit)) = clause.operands := by
  rw [Sql.operands, Sql.operands_append]
  cases limit <;> exact List.append_nil _

/-! ## Stages -/

theorem requireRole_eq_ok {role : Role} {p : Placement} (h : a.requireRole o role = .ok p) :
    a.findRole o role = some p := by
  unfold requireRole at h
  split at h
  · next hp =>
    cases h
    exact hp
  · cases h

theorem requireRole_eq_error {role : Role} (h : a.requireRole o role = .error e) :
    e = .configuration (.noRole role (o.marker role)) := by
  unfold requireRole at h
  split at h
  · cases h
  · cases h
    rfl

theorem parts_eq_ok {parts : Parts} (h : a.parts o = .ok parts) :
    a.findRole o .parent = some parts.parent ∧ a.findRole o .child = some parts.child := by
  unfold Audience.parts at h
  obtain ⟨parent, hparent, h⟩ := bind_eq_ok_iff.mp h
  obtain ⟨child, hchild, h⟩ := bind_eq_ok_iff.mp h
  split at h
  · cases h
  · cases h
    exact ⟨requireRole_eq_ok hparent, requireRole_eq_ok hchild⟩

/-- The parts of an audience that has objects for both roles: these objects, unless they have one alias. -/
theorem parts_of_findRole {p c : Placement} (hp : a.findRole o .parent = some p)
    (hc : a.findRole o .child = some c) : a.parts o =
      if p.label = c.label then .error (.configuration (.sameRoles p.label))
      else .ok { parent := p, child := c } := by
  have hparent : a.requireRole o .parent = .ok p := by rw [requireRole, hp]
  have hchild : a.requireRole o .child = .ok c := by rw [requireRole, hc]
  rw [Audience.parts, hparent, hchild]
  change (if _ then _ else _) = _
  split <;> rfl

theorem labels_ne_of_parts {parts : Parts} (h : a.parts o = .ok parts) :
    parts.parent.label ≠ parts.child.label := by
  obtain ⟨hp, hc⟩ := parts_eq_ok h
  rw [parts_of_findRole hp hc] at h
  split at h
  · cases h
  · assumption

theorem parts_eq_error (h : a.parts o = .error e) :
    (∃ role, e = .configuration (.noRole role (o.marker role))) ∨
      ∃ label, e = .configuration (.sameRoles label) := by
  unfold Audience.parts at h
  rcases bind_eq_error_iff.mp h with h | ⟨parent, _, h⟩
  · exact Or.inl ⟨_, requireRole_eq_error h⟩
  rcases bind_eq_error_iff.mp h with h | ⟨child, _, h⟩
  · exact Or.inl ⟨_, requireRole_eq_error h⟩
  split at h
  · cases h
    exact Or.inr ⟨_, rfl⟩
  · cases h

/-- **A stage that is set up** has its parts, its key and the conditions of both lists. -/
theorem stage_eq_ok {s : Stage} (h : a.stage o fs = .ok s) :
    a.validate = .ok () ∧ a.parts o = .ok s.parts ∧ a.key o = .ok s.key ∧ ∃ w₁ w₂,
      s.parts.parent.condition o Role.parent.listName fs.company = .ok (s.parentCondition, w₁) ∧
      s.parts.child.condition o Role.child.listName fs.contact = .ok (s.childCondition, w₂) ∧
      s.warnings = w₁ ++ w₂ := by
  unfold stage at h
  obtain ⟨⟨⟩, hvalid, h⟩ := bind_eq_ok_iff.mp h
  obtain ⟨parts, hparts, h⟩ := bind_eq_ok_iff.mp h
  obtain ⟨key, hkey, h⟩ := bind_eq_ok_iff.mp h
  obtain ⟨⟨c₁, w₁⟩, hparent, h⟩ := bind_eq_ok_iff.mp h
  obtain ⟨⟨c₂, w₂⟩, hchild, h⟩ := bind_eq_ok_iff.mp h
  cases h
  exact ⟨hvalid, hparts, hkey, w₁, w₂, hparent, hchild, rfl⟩

/-- **Why a stage fails**: the audience is not valid, its parts or its key are not at hand, or a filter
cannot be used. -/
theorem stage_eq_error (h : a.stage o fs = .error e) :
    a.validate = .error e ∨ a.parts o = .error e ∨ a.key o = .error e ∨
      ∃ parts, a.parts o = .ok parts ∧
        (parts.parent.condition o Role.parent.listName fs.company = .error e ∨
          parts.child.condition o Role.child.listName fs.contact = .error e) := by
  unfold stage at h
  rcases bind_eq_error_iff.mp h with h | ⟨⟨⟩, _, h⟩
  · exact Or.inl h
  rcases bind_eq_error_iff.mp h with h | ⟨parts, hparts, h⟩
  · exact Or.inr (Or.inl h)
  rcases bind_eq_error_iff.mp h with h | ⟨key, _, h⟩
  · exact Or.inr (Or.inr (Or.inl h))
  refine Or.inr (Or.inr (Or.inr ⟨parts, hparts, ?_⟩))
  rcases bind_eq_error_iff.mp h with h | ⟨⟨c, ws⟩, _, h⟩
  · exact Or.inl h
  rcases bind_eq_error_iff.mp h with h | ⟨⟨d, ws'⟩, _, h⟩
  · exact Or.inr h
  · cases h

section Statements

variable {o : CompileOptions} {requested : Option Nat} {s : Statement}

theorem countsStatement_eq_ok_iff : a.countsStatement fs o = .ok s ↔
    ∃ st, a.stage o.compiler fs = .ok st ∧ st.counts.write o = s := by
  rw [countsStatement_of_stage, map_eq_ok_iff]

theorem companyStatement_eq_ok_iff : a.companyStatement fs requested o = .ok s ↔
    ∃ st, a.stage o.compiler fs = .ok st ∧
      (st.companyPreview (o.compiler.previewRows requested)).write o = s := by
  rw [companyStatement_of_stage, map_eq_ok_iff]

theorem contactStatement_eq_ok_iff : a.contactStatement fs requested o = .ok s ↔
    ∃ st, a.stage o.compiler fs = .ok st ∧
      (st.contactPreview (o.compiler.previewRows requested)).write o = s := by
  rw [contactStatement_of_stage, map_eq_ok_iff]

end Statements

end Audience

end Targeting
