import Mathlib.Data.List.Find
import Targeting.Proofs.Sources

/-!
# Parents and children of all queries

Counts and previews look for the parent and the child together and refuse to take one object for both. A
listing looks for each of them by itself, when there are filters for it, and does not compare them. So the
queries agree on two objects, except where no object has a role and the first object with the marker of
either role is one and the same: a listing then asks this object about all its filters.

* `Audience.PlaysBoth`: an object plays both roles; **`Audience.playsBoth_iff`**;
* `Audience.Agree`, `Audience.Refuse`: what counts and previews do with the parent and the child;
* `Audience.ListingAsks`: the objects that a listing asks about its filters;
* **`Audience.listing_roles`**: those of counts and previews, if these do not refuse them.
-/

namespace Targeting

/-- A catalog has the marker field of a role. -/
def CatalogObject.Marked (c : CatalogObject) (o : CompilerSettings) (role : Role) : Prop :=
  ∃ f ∈ c.fields, f.name = o.marker role

theorem CatalogObject.isSome_field?_iff {c : CatalogObject} {o : CompilerSettings} {role : Role} :
    (c.field? (o.marker role)).isSome = true ↔ c.Marked o role := by
  rw [field?, List.find?_isSome]
  simp only [decide_eq_true_eq, Marked]

/-- What is found first in two ways stands behind what is found in neither way. -/
theorem find?_both {α : Type} {P Q : α → Bool} {xs : List α} {x : α} (hP : xs.find? P = some x)
    (hQ : xs.find? Q = some x) : ∃ before after, xs = before ++ x :: after ∧
      ∀ y ∈ before, ¬ P y ∧ ¬ Q y := by
  obtain ⟨_, before, after, rfl, hbefore⟩ := List.find?_eq_some_iff_append.mp hP
  refine ⟨before, after, rfl, fun y hy => ⟨by simpa using hbefore y hy, fun hQy => ?_⟩⟩
  -- In the other way something before `x` would be found, and it would be `x` itself.
  obtain ⟨z, hz⟩ := Option.isSome_iff_exists.mp (List.find?_isSome.mpr ⟨y, hy, hQy⟩)
  rw [List.find?_append, hz, Option.some_or, Option.some.injEq] at hQ
  have hzP := hbefore z (List.mem_of_find?_eq_some hz)
  rw [hQ, List.find?_some hP] at hzP
  cases hzP

namespace Audience

variable {a : Audience} {p c : Placement}

/-! ## One object for both roles -/

/-- An object plays both roles: no object has a role, and this one is marked for both, behind objects that
are marked for none. -/
structure PlaysBoth (a : Audience) (o : CompilerSettings) (p : Placement) : Prop where
  untagged : ∀ q ∈ a.objects, q.role = none
  first : ∃ before after, a.objects = before ++ p :: after ∧ (∀ role, p.object.Marked o role) ∧
    ∀ q ∈ before, ∀ role, ¬ q.object.Marked o role

section

variable {o : CompilerSettings}

/-- Without roles the first object with the marker plays a role. -/
theorem findRole_of_untagged (h : ∀ q ∈ a.objects, q.role = none) (role : Role) :
    a.findRole o role = a.objects.find? fun q => (q.object.field? (o.marker role)).isSome := by
  have htagged : (a.objects.find? fun q => q.role = some role) = none :=
    List.find?_eq_none.mpr fun q hq => by simp [h q hq]
  rw [findRole, htagged, Option.orElse_eq_or, Option.none_or]
  exact List.find?_congr fun q hq => by rw [h q hq, Option.isNone_none, Bool.true_and]

theorem role_of_findRole {role : Role} (h : a.findRole o role = some p) :
    p.role = some role ∨ p.role = none ∧ ∀ q ∈ a.objects, q.role ≠ some role := by
  rw [findRole, Option.orElse_eq_or] at h
  rcases Option.or_eq_some_iff.mp h with h | ⟨hnone, h⟩
  · exact Or.inl (by simpa using List.find?_some h)
  · have hp := List.find?_some h
    rw [Bool.and_eq_true, Option.isNone_iff_eq_none] at hp
    exact Or.inr ⟨hp.1, fun q hq => by simpa using List.find?_eq_none.mp hnone q hq⟩

/-- Where one object is found for both roles, no object has a role. -/
theorem untagged_of_findRole (h : ∀ role, a.findRole o role = some p) : ∀ q ∈ a.objects, q.role = none := by
  have hothers : ∀ role, ∀ q ∈ a.objects, q.role ≠ some role := by
    rcases role_of_findRole (h .parent) with hparent | ⟨hnone, hparents⟩
    · rcases role_of_findRole (h .child) with hchild | ⟨hnone, _⟩
      · cases hparent.symm.trans hchild
      · cases hparent.symm.trans hnone
    · rcases role_of_findRole (h .child) with hchild | ⟨_, hchildren⟩
      · cases hnone.symm.trans hchild
      · rintro (_ | _)
        · exact hparents
        · exact hchildren
  exact fun q hq => Option.eq_none_iff_forall_ne_some.mpr fun role => hothers role q hq

/-- **An object plays both roles** exactly if it is found for both. -/
theorem playsBoth_iff : a.PlaysBoth o p ↔ ∀ role, a.findRole o role = some p := by
  constructor
  · rintro ⟨huntagged, before, after, hobjects, hp, hbefore⟩ role
    rw [findRole_of_untagged huntagged, hobjects]
    refine List.find?_eq_some_iff_append.mpr ⟨?_, before, after, rfl, fun q hq => ?_⟩
    · exact CatalogObject.isSome_field?_iff.mpr (hp role)
    · have hq := hbefore q hq role
      rw [← CatalogObject.isSome_field?_iff] at hq
      simpa using hq
  · intro h
    have huntagged := untagged_of_findRole h
    have hfirst := fun role => (findRole_of_untagged huntagged role).symm.trans (h role)
    obtain ⟨before, after, hobjects, hbefore⟩ := find?_both (hfirst .parent) (hfirst .child)
    refine ⟨huntagged, before, after, hobjects, fun role => ?_, fun q hq => ?_⟩
    · have hp := List.find?_some (hfirst role)
      exact CatalogObject.isSome_field?_iff.mp hp
    rintro (_ | _)
    · exact fun hmarked => (hbefore q hq).1 (CatalogObject.isSome_field?_iff.mpr hmarked)
    · exact fun hmarked => (hbefore q hq).2 (CatalogObject.isSome_field?_iff.mpr hmarked)

theorem PlaysBoth.eq {q : Placement} {role : Role} (h : a.PlaysBoth o q)
    (hrole : a.findRole o role = some p) : p = q :=
  Option.some.inj (hrole.symm.trans (playsBoth_iff.mp h role))

end

/-! ## Counts and previews -/

section

variable {o : CompileOptions}

/-- Counts and previews take two objects of different aliases for the parent and the child. -/
structure Agree (a : Audience) (o : CompilerSettings) (p c : Placement) : Prop where
  different : p.label ≠ c.label
  parts : a.parts o = .ok { parent := p, child := c }
  stages : ∀ fs st, a.stage o fs = .ok st → st.parts = { parent := p, child := c }

/-- Counts and previews refuse to take an object for both the parent and the child. -/
structure Refuse (a : Audience) (o : CompileOptions) (p : Placement) : Prop where
  parts : a.parts o.compiler = .error (.configuration (.sameRoles p.label))
  counts : ∀ fs, a.countsStatement fs o = .error (.configuration (.sameRoles p.label))
  company : ∀ fs limit, a.companyStatement fs limit o = .error (.configuration (.sameRoles p.label))
  contact : ∀ fs limit, a.contactStatement fs limit o = .error (.configuration (.sameRoles p.label))

theorem agree_of_findRole {o : CompilerSettings} (hp : a.findRole o .parent = some p)
    (hc : a.findRole o .child = some c) (hne : p.label ≠ c.label) : a.Agree o p c := by
  have hparts := (parts_of_findRole hp hc).trans (if_neg hne)
  exact ⟨hne, hparts, fun fs st hst => Except.ok.inj ((stage_eq_ok hst).2.1.symm.trans hparts)⟩

theorem PlaysBoth.refuse (hvalid : a.validate = .ok ()) (h : a.PlaysBoth o.compiler p) :
    a.Refuse o p := by
  have hroles := playsBoth_iff.mp h
  have hparts := (parts_of_findRole (hroles .parent) (hroles .child)).trans (if_pos rfl)
  have hstage : ∀ fs, a.stage o.compiler fs = .error (.configuration (.sameRoles p.label)) := by
    intro fs
    rw [stage, hvalid, hparts]
    rfl
  refine ⟨hparts, fun fs => ?_, fun fs limit => ?_, fun fs limit => ?_⟩
  · rw [countsStatement, hstage]
    rfl
  · rw [companyStatement, bothPreviews, hstage]
    rfl
  · rw [contactStatement, bothPreviews, hstage]
    rfl

/-! ## Listings -/

/-- A listing asks two objects, which it joins, about its filters: its clause has one comparison for each
filter in order, with a column under the alias of the first of them for a company filter and of the other
for a contact filter. -/
def ListingAsks (a : Audience) (o : CompileOptions) (fs : FilterSet) (limit : Option Nat) (s : Statement)
    (p c : Placement) : Prop :=
  ∃ plan company contact clause, JoinPlan.build a o.compiler.joinStrategy = .ok plan ∧
    p ∈ plan.objects ∧ c ∈ plan.objects ∧
    p.AsksAll fs.company company ∧ c.AsksAll fs.contact contact ∧
    ClauseFrom (Condition.leafTexts (Sql.mark o.dialect o.compiler.valueMode) 1
      (company.map p.leaf ++ contact.map c.leaf)) clause ∧
    s.sql = plan.listingHead ++ clause ++ limit.elim "" fun n => " LIMIT " ++ toString n

end

end Audience

/-- The condition for a role in a listing with filters for it comes from the object that plays the role. -/
theorem JoinPlan.asked_of_condition {plan : JoinPlan} {o : CompilerSettings} {a : Audience}
    (hvalid : a.validate = .ok ()) {strategy : JoinStrategy} (hplan : build a strategy = .ok plan)
    {role : Role} {fs : List Filter} {cs : List Condition} {ws : List Warning} (hfs : fs ≠ [])
    (h : plan.condition o a role fs = .ok (cs, ws)) : ∃ p asked, a.findRole o role = some p ∧
      p ∈ plan.objects ∧ p.AsksAll fs asked ∧ cs.flatMap Condition.leaves = asked.map p.leaf ∧
      cs ≠ [] ∧ ∀ c ∈ cs, c.Full := by
  rcases condition_eq_ok h with ⟨hnil, _⟩ | ⟨_, p, c, hp, hc, rfl⟩
  · exact absurd hnil hfs
  · obtain ⟨asked, hall, hleaves, hfull⟩ := Placement.condition_carries hc
    refine ⟨p, asked, (target_eq_ok hp).1, mem_of_target hvalid hplan hp, hall, ?_,
      List.cons_ne_nil _ _, ?_⟩
    · rw [List.flatMap_singleton, hleaves]
    · exact List.forall_mem_singleton.mpr (hfull.resolve_left fun hnil => hfs hnil.2)

namespace Audience

variable {a : Audience} {o : CompileOptions} {fs : FilterSet} {limit : Option Nat} {s : Statement}

theorem listing_asks (hcompany : fs.company ≠ []) (hcontact : fs.contact ≠ [])
    (h : a.listingStatement fs limit o = .ok s) : ∃ p c, a.findRole o.compiler .parent = some p ∧
      a.findRole o.compiler .child = some c ∧ a.ListingAsks o fs limit s p c := by
  obtain ⟨plan, cs, ds, _, _, hvalid, hplan, hcs, hds, hsql⟩ := listingStatement_eq_ok h
  obtain ⟨p, company, hp, hpmem, hpasks, hpleaves, hne, hpfull⟩ :=
    JoinPlan.asked_of_condition hvalid hplan hcompany hcs
  obtain ⟨c, contact, hc, hcmem, hcasks, hcleaves, _, hcfull⟩ :=
    JoinPlan.asked_of_condition hvalid hplan hcontact hds
  have hfull : (Condition.conjunction (cs ++ ds)).Full :=
    Condition.full_conjunction (List.append_ne_nil_of_left_ne_nil hne ds)
      (List.forall_mem_append.mpr ⟨hpfull, hcfull⟩)
  have hclause := Condition.clauseFrom_whereClause (Or.inr hfull)
    (Sql.mark o.dialect o.compiler.valueMode) 1
  rw [Condition.leaves_conjunction, List.flatMap_append, hpleaves, hcleaves] at hclause
  exact ⟨p, c, hp, hc, plan, company, contact, _, hplan, hpmem, hcmem, hpasks, hcasks, hclause, hsql⟩

/-- **A listing with filters of both lists asks the parent and the child of counts and previews** about
them, unless one object plays both roles. Then it asks this object about all of them, where counts and
previews refuse it. -/
theorem listing_roles (hcompany : fs.company ≠ []) (hcontact : fs.contact ≠ [])
    (h : a.listingStatement fs limit o = .ok s) : ∃ p c, a.ListingAsks o fs limit s p c ∧
      ((∀ q, ¬ a.PlaysBoth o.compiler q) → a.Agree o.compiler p c) ∧
      ∀ q, a.PlaysBoth o.compiler q → p = q ∧ c = q ∧ a.Refuse o q := by
  obtain ⟨_, _, _, _, _, hvalid, _⟩ := listingStatement_eq_ok h
  obtain ⟨p, c, hp, hc, hasks⟩ := listing_asks hcompany hcontact h
  refine ⟨p, c, hasks, fun hnone => agree_of_findRole hp hc fun hlabel => ?_,
    fun q hq => ⟨hq.eq hp, hq.eq hc, hq.refuse hvalid⟩⟩
  -- No two objects share an alias, so this one would play both roles.
  obtain rfl : p = c := List.inj_on_of_nodup_map (nodup_labels_of_validate hvalid) (mem_of_findRole hp)
    (mem_of_findRole hc) hlabel
  exact hnone p (playsBoth_iff.mpr fun | .parent => hp | .child => hc)

/-- People with their companies in one table. -/
def people : Audience where
  objects :=
    [{ object := { table := "people", fields := [{ name := "company_name" }, { name := "job_title" }] }
       label := "p" }]

/-- Filters of both lists for people. -/
def directorsOfAcme : FilterSet where
  company := [Sample.filter "company_name" .equals "Acme"]
  contact := [Sample.filter "job_title" .contains "Director"]

/-- The listing of the sample asks the two objects of its counts. -/
theorem sample_listing_roles : ∃ s p c,
    Sample.directors.company ≠ [] ∧ Sample.directors.contact ≠ [] ∧
      Sample.audience.listingStatement Sample.directors (some 10) {} = .ok s ∧
      Sample.audience.ListingAsks {} Sample.directors (some 10) s p c ∧
      Sample.audience.Agree {} p c := by
  have hcompany : Sample.directors.company ≠ [] := List.cons_ne_nil _ _
  have hcontact : Sample.directors.contact ≠ [] := List.cons_ne_nil _ _
  have hlisting : ∃ s, Sample.audience.listingStatement Sample.directors (some 10) {} = .ok s := ⟨_, rfl⟩
  obtain ⟨s, hs⟩ := hlisting
  obtain ⟨p, c, hasks, hagree, _⟩ := listing_roles hcompany hcontact hs
  refine ⟨s, p, c, hcompany, hcontact, hs, hasks, hagree fun q hq => ?_⟩
  cases hq.untagged _ List.mem_cons_self

/-- **A listing may ask one object about all filters**: that of people compiles, and counts of them do not. -/
theorem people_roles_shared : people.validate = .ok () ∧
    directorsOfAcme.company ≠ [] ∧ directorsOfAcme.contact ≠ [] ∧
    (∃ s, people.listingStatement directorsOfAcme none {} = .ok s ∧
      s.sql = "SELECT DISTINCT p.company_name AS p_company_name, p.job_title AS p_job_title FROM people p" ++
        " WHERE p.company_name = $1 AND p.job_title LIKE $2") ∧
    people.parts {} = .error (.configuration (.sameRoles "p")) :=
  ⟨rfl, List.cons_ne_nil _ _, List.cons_ne_nil _ _, ⟨_, rfl, by decide +kernel⟩, rfl⟩

end Audience

end Targeting
