import Targeting.Proofs.Permissions
import Targeting.Proofs.Sources

/-!
# Hidden fields

A select list names the columns of fields that may be shown, and no others. But a query without such
fields selects everything, hidden fields too: a listing whatever its objects have, and a preview all
columns of the object that it shows.

* `Placement.column_eq`: what a column under a name says of its object and its field;
* `ShowsFields`: a list of columns of fields that may be shown;
* `Selects`, `selects_selectList`: when a select list is one;
* **`Audience.statements_select`**: the select lists of listings and previews.
-/

namespace Targeting

/-! ## Columns under names -/

/-- What stands before the first of the same separators is the same. -/
theorem append_cons_inj_of_first {α : Type} {c : α} {xs ys cs ds : List α} (hxs : c ∉ xs) (hys : c ∉ ys)
    (h : xs ++ c :: cs = ys ++ c :: ds) : xs = ys ∧ cs = ds := by
  have hreverse := congrArg List.reverse h
  simp only [List.reverse_append, List.reverse_cons, List.append_assoc, List.singleton_append] at hreverse
  have heq : xs = ys := List.reverse_inj.mp
    (eq_of_append_cons_eq (List.mem_reverse.not.mpr hxs) (List.mem_reverse.not.mpr hys) hreverse)
  rw [heq] at h
  exact ⟨heq, (List.cons.inj (List.append_cancel_left h)).2⟩

/-- **A column under a name** is that of one alias and of one column. -/
theorem Placement.column_eq {p q : Placement} {f g : Field} {m n : String} (hp : p.Vetted) (hq : q.Vetted)
    (hf : f ∈ p.object.fields) (hg : g ∈ q.object.fields)
    (h : p.column f ++ " AS " ++ m = q.column g ++ " AS " ++ n) :
    p.label = q.label ∧ f.columnName = g.columnName := by
  have hdot : ∀ {s : String}, isIdentifier s = true → '.' ∉ s.toList := fun hs hmem =>
    isIdentifierChars_no_dot hs '.' hmem rfl
  have hblank : ∀ {s : String}, isIdentifier s = true → ' ' ∉ s.toList := fun hs hmem =>
    absurd (isIdentifierChars_chars hs ' ' hmem) (by decide)
  have hchars : ∀ (r : Placement) (e : Field) (l : String), (r.column e ++ " AS " ++ l).toList =
      r.label.toList ++ '.' :: (e.columnName.toList ++ ' ' :: ("AS ".toList ++ l.toList)) := by
    intro r e l
    simp [column, qualify, String.toList_append]
  have hlist := congrArg String.toList h
  rw [hchars, hchars] at hlist
  obtain ⟨hlabel, hrest⟩ := append_cons_inj_of_first (hdot hp.label) (hdot hq.label) hlist
  obtain ⟨hcolumn, _⟩ :=
    append_cons_inj_of_first (hblank (hp.columns f hf)) (hblank (hq.columns g hg)) hrest
  exact ⟨String.toList_inj.mp hlabel, String.toList_inj.mp hcolumn⟩

/-! ## Select lists -/

/-- A column of a field that may be shown, under some name. -/
def IsShown (ps : List Placement) (item : String) : Prop :=
  ∃ p ∈ ps, ∃ f ∈ p.object.displayable, ∃ name, item = p.column f ++ " AS " ++ name

/-- A select list shows fields of some objects: it consists of columns of fields that may be shown, and the
column of a hidden field is among them only if it is also that of another field, which may be shown. -/
def ShowsFields (ps : List Placement) (list : String) : Prop :=
  ∃ items, items ≠ [] ∧ list = ", ".intercalate items ∧ (∀ item ∈ items, IsShown ps item) ∧
    ∀ p ∈ ps, ∀ f ∈ p.object.fields, f.displayable = false →
      ∀ name, p.column f ++ " AS " ++ name ∈ items →
        ∃ g ∈ p.object.displayable, g.columnName = f.columnName

/-- What a query with some objects selects: it shows fields exactly if one of the objects has a field to
be shown, and everything if none has. -/
structure Selects (ps : List Placement) (wildcard list : String) : Prop where
  shows_iff : ShowsFields ps list ↔ ∃ p ∈ ps, p.object.displayable ≠ []
  fallback : (∀ p ∈ ps, p.object.displayable = []) → list = wildcard

section

variable {ps : List Placement} (hvetted : ∀ p ∈ ps, p.Vetted) (hlabels : (ps.map Placement.label).Nodup)
include hvetted hlabels

/-- A hidden field is not shown, unless another field has its column. -/
theorem IsShown.of_column {item : String} (h : IsShown ps item) {p : Placement} (hp : p ∈ ps) {f : Field}
    (hf : f ∈ p.object.fields) {name : String} (hitem : item = p.column f ++ " AS " ++ name) :
    ∃ g ∈ p.object.displayable, g.columnName = f.columnName := by
  obtain ⟨q, hq, g, hg, n, hshown⟩ := h
  obtain ⟨hlabel, hcolumn⟩ := Placement.column_eq (hvetted q hq) (hvetted p hp) (List.mem_of_mem_filter hg)
    hf (hshown.symm.trans hitem)
  obtain rfl : q = p := List.inj_on_of_nodup_map hlabels hq hp hlabel
  exact ⟨g, hg, hcolumn⟩

/-- **A select list shows fields** if there are any to be shown. -/
theorem selects_selectList {items : List String} (hitems : ∀ item ∈ items, IsShown ps item)
    (hnil : (∀ p ∈ ps, p.object.displayable = []) → items = [])
    (hne : (∃ p ∈ ps, p.object.displayable ≠ []) → items ≠ []) (wildcard : String) :
    Selects ps wildcard (selectList wildcard items) := by
  constructor
  · constructor
    · rintro ⟨shown, hshown, _, hall, _⟩
      obtain ⟨item, hitem⟩ := List.exists_mem_of_ne_nil shown hshown
      obtain ⟨p, hp, f, hf, _⟩ := hall item hitem
      exact ⟨p, hp, List.ne_nil_of_mem hf⟩
    · intro hsome
      have hempty : items.isEmpty = false := by
        rw [List.isEmpty_eq_false_iff]
        exact hne hsome
      refine ⟨items, hne hsome, by rw [selectList, hempty]; rfl, hitems, fun p hp f hf _ name hmem => ?_⟩
      exact (hitems _ hmem).of_column hvetted hlabels hp hf rfl
  · intro hnone
    rw [hnil hnone]
    rfl

end

theorem selects_listing {ps : List Placement} (hvetted : ∀ p ∈ ps, p.Vetted)
    (hlabels : (ps.map Placement.label).Nodup) :
    Selects ps "*" (selectList "*" (ps.flatMap Placement.listingItems)) := by
  have hempty : ∀ p ∈ ps, p.listingItems = [] ↔ p.object.displayable = [] :=
    fun p _ => List.map_eq_nil_iff
  refine selects_selectList hvetted hlabels (fun item hitem => ?_) (fun hnone => ?_) (fun hsome => ?_) _
  · obtain ⟨p, hp, hitem⟩ := List.mem_flatMap.mp hitem
    obtain ⟨f, hf, rfl⟩ := List.mem_map.mp hitem
    exact ⟨p, hp, f, hf, p.label ++ "_" ++ sanitize f.name, by simp only [String.append_assoc]⟩
  · exact List.flatMap_eq_nil_iff.mpr fun p hp => (hempty p hp).mpr (hnone p hp)
  · obtain ⟨p, hp, hdisplayable⟩ := hsome
    exact fun hnil => hdisplayable ((hempty p hp).mp (List.flatMap_eq_nil_iff.mp hnil p hp))

theorem selects_preview {p : Placement} (hp : p.Vetted) :
    Selects [p] (p.qualify "*") (selectList (p.qualify "*") p.previewItems) := by
  have hempty : p.previewItems = [] ↔ p.object.displayable = [] := List.map_eq_nil_iff
  refine selects_selectList (List.forall_mem_singleton.mpr hp) (List.nodup_singleton _) (fun item hitem => ?_)
    (fun hnone => hempty.mpr (hnone p List.mem_cons_self)) (fun hsome => ?_) _
  · obtain ⟨f, hf, rfl⟩ := List.mem_map.mp hitem
    exact ⟨p, List.mem_cons_self, f, hf, _, rfl⟩
  · obtain ⟨q, hq, hdisplayable⟩ := hsome
    rw [List.mem_singleton.mp hq] at hdisplayable
    exact fun hnil => hdisplayable (hempty.mp hnil)

/-! ## Statements -/

namespace Audience

variable (a : Audience) (fs : FilterSet) (limit : Option Nat) (o : CompileOptions)

/-- A listing selects from the objects that its clause introduces, those of its plan. -/
def ListingSelects (s : Statement) : Prop :=
  ∃ (plan : JoinPlan) (list : String) (condition : Condition),
    JoinPlan.build a o.compiler.joinStrategy = .ok plan ∧ Introduces plan.objects plan.clause ∧
    s.sql = "SELECT DISTINCT " ++ list ++ " " ++ plan.clause ++
      condition.whereClause.textWith (Sql.mark o.dialect o.compiler.valueMode) 1 ++
      (limit.elim "" fun n => " LIMIT " ++ toString n) ∧
    Selects plan.objects "*" list

/-- A preview selects from the one object that it shows, behind the qualified parents and under a clause of
its own. -/
def PreviewSelects (shown : Parts → Placement) (own : Stage → (Nat → Value → String) → String)
    (s : Statement) : Prop :=
  ∃ (st : Stage) (list : String), a.stage o.compiler fs = .ok st ∧
    let w := Sql.mark o.dialect o.compiler.valueMode
    s.sql = st.qualifiedText (st.parentClause w) ++ " SELECT " ++ list ++ " " ++
      st.belonging (shown st.parts) ++ own st w ++ " LIMIT " ++ toString (o.compiler.previewRows limit) ∧
    Selects [shown st.parts] ((shown st.parts).qualify "*") list

/-- **Listings and previews select columns of fields that may be shown**, and no hidden ones, if one of the
objects that they select from has such a field. Otherwise they select everything. -/
theorem statements_select :
    (∀ s, a.listingStatement fs limit o = .ok s → a.ListingSelects limit o s) ∧
      (∀ s, a.companyStatement fs limit o = .ok s →
        a.PreviewSelects fs limit o Parts.parent (fun _ _ => "") s) ∧
      ∀ s, a.contactStatement fs limit o = .ok s →
        a.PreviewSelects fs limit o Parts.child Stage.childClause s := by
  refine ⟨fun s hs => ?_, fun s hs => ?_, fun s hs => ?_⟩
  · obtain ⟨plan, _, _, _, _, hvalid, hplan, _, _, hsql⟩ := listingStatement_eq_ok hs
    have hvetted : ∀ p ∈ plan.objects, p.Vetted := fun p hp =>
      vetted_of_validate hvalid p ((JoinPlan.drawnFrom_build hplan).objects p hp)
    exact ⟨plan, _, _, hplan, plan.introduces_clause, hsql,
      selects_listing hvetted (JoinPlan.nodup_labels hvalid hplan)⟩
  · obtain ⟨st, hst, rfl⟩ := companyStatement_eq_ok_iff.mp hs
    exact ⟨st, _, hst, (Sql.write_text _ _ _).trans (st.textWith_preview _ _ [] _),
      selects_preview (vetted_of_stage hst).parent⟩
  · obtain ⟨st, hst, rfl⟩ := contactStatement_eq_ok_iff.mp hs
    exact ⟨st, _, hst, (Sql.write_text _ _ _).trans (st.textWith_preview _ _ _ _),
      selects_preview (vetted_of_stage hst).child⟩

/-- The sample has a hidden field, and its listing and previews show the others. -/
theorem sample_statements_select :
    (∃ s, Sample.audience.listingStatement Sample.directors (some 10) {} = .ok s ∧
        Sample.audience.ListingSelects (some 10) {} s) ∧
      (∃ s, Sample.audience.companyStatement Sample.directors (some 10) {} = .ok s ∧
        Sample.audience.PreviewSelects Sample.directors (some 10) {} Parts.parent (fun _ _ => "") s) ∧
      ∃ s, Sample.audience.contactStatement Sample.directors (some 10) {} = .ok s ∧
        Sample.audience.PreviewSelects Sample.directors (some 10) {} Parts.child Stage.childClause s := by
  obtain ⟨hlisting, hcompany, hcontact⟩ := statements_select Sample.audience Sample.directors (some 10) {}
  exact ⟨⟨_, rfl, hlisting _ rfl⟩, ⟨_, rfl, hcompany _ rfl⟩, ⟨_, rfl, hcontact _ rfl⟩⟩

/-- The sample with all fields hidden. -/
def secluded : Audience :=
  { Sample.audience with
    objects := Sample.audience.objects.map fun p =>
      { p with
        object := { p.object with fields := p.object.fields.map fun f => { f with displayable := false } } } }

/-- **Where all fields are hidden, all columns are selected.** -/
theorem secluded_shows_hidden :
    (∀ p ∈ secluded.objects, p.object.fields ≠ [] ∧ p.object.displayable = []) ∧
      (∀ list, ¬ ShowsFields secluded.objects list) ∧
      (∃ s, secluded.listingStatement {} none {} = .ok s ∧
        s.sql = "SELECT DISTINCT * FROM companies c INNER JOIN contacts p ON c.company_id = p.company_id") ∧
      (∃ s, secluded.companyStatement {} (some 5) {} = .ok s ∧
        s.sql = "WITH qualified_companies AS (SELECT DISTINCT c.company_id FROM companies c) SELECT c.*" ++
          " FROM companies c INNER JOIN qualified_companies ON" ++
          " c.company_id = qualified_companies.company_id LIMIT 5") ∧
      ∃ s, secluded.contactStatement {} (some 5) {} = .ok s ∧
        s.sql = "WITH qualified_companies AS (SELECT DISTINCT c.company_id FROM companies c) SELECT p.*" ++
          " FROM contacts p INNER JOIN qualified_companies ON" ++
          " p.company_id = qualified_companies.company_id LIMIT 5" := by
  have hhidden : ∀ p ∈ secluded.objects, p.object.fields ≠ [] ∧ p.object.displayable = [] := by decide
  refine ⟨hhidden, ?_, ⟨_, rfl, by decide +kernel⟩, ⟨_, rfl, by decide +kernel⟩,
    ⟨_, rfl, by decide +kernel⟩⟩
  rintro list ⟨items, hne, _, hitems, _⟩
  obtain ⟨item, hitem⟩ := List.exists_mem_of_ne_nil items hne
  obtain ⟨p, hp, f, hf, _⟩ := hitems item hitem
  rw [(hhidden p hp).2] at hf
  cases hf

end Audience

end Targeting
