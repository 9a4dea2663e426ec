import Mathlib.Data.List.Nodup
import Targeting.Proofs.BreadthFirst
import Targeting.Proofs.Parameters

/-!
# What listings draw on

The clauses of a listing come from different walks: what is selected and what it is selected from from
the plan of the joins, the conditions from the objects that play roles, and the warnings from what the
plan leaves out. They agree on the objects of the audience that are in use.

* `Introduces`: a clause introduces objects, `JoinPlan.introduces_clause`;
* `selection`: the columns to show, `selection_filter`: those of each object once and in order;
* **`JoinPlan.perm_build`**: a plan splits the objects of an audience, `JoinPlan.mem_of_target`;
* `Placement.leftOutText`: the text of a warning, by which an object is known;
* `DrawsOn`: a listing draws on objects; **`Audience.listing_drawsOn`**.
-/

namespace Targeting

/-! ## Clauses -/

/-- A clause introduces objects in order: the first of them after its keyword, and each of the others
after the keyword of a join, with a condition behind it. -/
inductive Introduces : List Placement → String → Prop
  | root (p : Placement) : Introduces [p] ("FROM " ++ p.object.table ++ " " ++ p.label)
  | join {ps : List Placement} {s : String} (h : Introduces ps s) (kind : JoinKind) (p : Placement)
      (condition : String) : Introduces (ps ++ [p]) (s ++ (" " ++ kind.keyword ++ " " ++
        p.object.table ++ " " ++ p.label ++ " ON " ++ condition))

theorem Introduces.joins {ps : List Placement} {s : String} (h : Introduces ps s)
    (joins : List Join) :
    Introduces (ps ++ joins.map Join.target) (s ++ String.join (joins.map Join.clause)) := by
  induction joins generalizing ps s with
  | nil => simpa using h
  | cons j joins ih =>
    have hnext := ih (h.join j.relationship.kind j.target j.relationship.condition)
    rw [List.append_assoc, String.append_assoc] at hnext
    rw [List.map_cons, List.map_cons, String.join_cons]
    exact hnext

theorem JoinPlan.introduces_clause (plan : JoinPlan) : Introduces plan.objects plan.clause :=
  (Introduces.root plan.root).joins plan.joins

/-! ## Selections -/

/-- The columns of some objects that may be shown. -/
def selection (ps : List Placement) : List (Placement × Field) :=
  ps.flatMap fun p => p.object.displayable.map (p, ·)

/-- A column as it is selected, under the alias and the name of its field. -/
def selected (q : Placement × Field) : String :=
  q.1.column q.2 ++ " AS " ++ q.1.label ++ "_" ++ sanitize q.2.name

theorem flatMap_listingItems (ps : List Placement) :
    ps.flatMap Placement.listingItems = (selection ps).map selected := by
  rw [selection, List.map_flatMap]
  refine List.flatMap_congr fun p _ => ?_
  rw [List.map_map]
  rfl

theorem selection_cons (p : Placement) (ps : List Placement) :
    selection (p :: ps) = p.object.displayable.map (p, ·) ++ selection ps := List.flatMap_cons

theorem selection_append (ps qs : List Placement) :
    selection (ps ++ qs) = selection ps ++ selection qs := List.flatMap_append

theorem columns_filter (p : Placement) (label : String) :
    (p.object.displayable.map (p, ·)).filter (fun q => q.1.label = label) =
      if p.label = label then p.object.displayable.map (p, ·) else [] := by
  split
  · next he => exact List.filter_eq_self.mpr (by simp [he])
  · next hne => exact List.filter_eq_nil_iff.mpr (by simp [hne])

theorem selection_filter_of_notMem {ps : List Placement} {label : String}
    (h : label ∉ ps.map Placement.label) :
    (selection ps).filter (fun q => q.1.label = label) = [] := by
  rw [selection, List.filter_flatMap, List.flatMap_eq_nil_iff]
  intro p hp
  exact (columns_filter p label).trans (if_neg fun he => h (List.mem_map.mpr ⟨p, hp, he⟩))

/-- **Under the alias of an object** its columns are selected, each once and in order. -/
theorem selection_filter {ps : List Placement} (h : (ps.map Placement.label).Nodup) {p : Placement}
    (hp : p ∈ ps) : (selection ps).filter (fun q => q.1.label = p.label) =
      p.object.displayable.map (p, ·) := by
  obtain ⟨before, after, rfl⟩ := List.append_of_mem hp
  rw [List.map_append, List.map_cons, List.nodup_middle, List.nodup_cons, List.mem_append,
    not_or] at h
  obtain ⟨⟨hbefore, hafter⟩, _⟩ := h
  rw [selection_append, selection_cons, List.filter_append, List.filter_append,
    selection_filter_of_notMem hbefore, selection_filter_of_notMem hafter, columns_filter, if_pos rfl,
    List.nil_append, List.append_nil]

/-! ## Plans -/

namespace JoinPlan

variable {a : Audience} {plan : JoinPlan}

theorem perm_flatFrom (root : Placement) (others : List Placement) (rs : List Relationship) :
    ((flatFrom root others rs).objects ++ (flatFrom root others rs).leftOut).Perm
      (root :: others) := by
  have hjoined : (flatFrom root others rs).joins.map Join.target =
      others.filter fun p => !(relationFor? rs p).isNone := by
    simp only [flatFrom]
    induction others with
    | nil => rfl
    | cons p rest ih =>
      cases hp : relationFor? rs p with
      | none => simpa [hp] using ih
      | some r => simpa [hp] using ih
  rw [objects, hjoined]
  exact ((List.perm_append_comm.trans (List.filter_append_perm _ others))).cons root

/-- **A plan splits the objects of a valid audience** into those it selects from and those it leaves
out. -/
theorem perm_build (hvalid : a.validate = .ok ()) {strategy : JoinStrategy}
    (h : build a strategy = .ok plan) : (plan.objects ++ plan.leftOut).Perm a.objects := by
  obtain ⟨root, others, hobjects⟩ := List.exists_cons_of_ne_nil (Audience.checks_of_validate hvalid).1
  cases strategy with
  | flat =>
    rw [build, flat, hobjects] at h
    cases h
    rw [hobjects]
    exact perm_flatFrom root others a.relationships
  | graph =>
    obtain ⟨hspans, _⟩ := spans_of_graph hobjects (Audience.nodup_labels_of_validate hvalid) h
    rw [hspans.leftOut, List.append_nil]
    exact hspans.objects

theorem nodup_labels (hvalid : a.validate = .ok ()) {strategy : JoinStrategy}
    (h : build a strategy = .ok plan) : (plan.objects.map Placement.label).Nodup := by
  have hall := ((perm_build hvalid h).map Placement.label).nodup_iff.mpr
    (Audience.nodup_labels_of_validate hvalid)
  rw [List.map_append] at hall
  exact (List.nodup_append.mp hall).1

theorem leftOut_of_graph (hvalid : a.validate = .ok ()) (h : build a .graph = .ok plan) :
    plan.leftOut = [] := by
  obtain ⟨root, others, hobjects⟩ := List.exists_cons_of_ne_nil (Audience.checks_of_validate hvalid).1
  exact (spans_of_graph hobjects (Audience.nodup_labels_of_validate hvalid) h).1.leftOut

theorem mem_of_target (hvalid : a.validate = .ok ()) {strategy : JoinStrategy}
    (hplan : build a strategy = .ok plan) {o : CompilerSettings} {role : Role} {p : Placement}
    (h : plan.target o a role = .ok p) : p ∈ plan.objects := by
  obtain ⟨hrole, hin⟩ := target_eq_ok h
  -- The plan includes the alias; no other object of the audience has it.
  obtain ⟨q, hq, hlabel⟩ := List.any_eq_true.mp hin
  have hpq : q = p := List.inj_on_of_nodup_map (Audience.nodup_labels_of_validate hvalid)
    ((drawnFrom_build hplan).objects q hq) (Audience.mem_of_findRole hrole) (of_decide_eq_true hlabel)
  exact hpq ▸ hq

end JoinPlan

/-! ## Warnings -/

/-- The warning that an object is left out. -/
def Placement.leftOutText (p : Placement) : String :=
  (Warning.leftOut p.object.name p.label).text

theorem Warning.text_ne_leftOut (path raw object label : String) :
    (unsupportedOperator path raw).text ≠ (leftOut object label).text := by
  intro h
  have hlast := congrArg (fun s : String => s.toList.getLast?) h
  simp [text, toString, List.getLast?_cons] at hlast

theorem eq_of_append_cons_eq {α : Type} {c : α} {xs ys cs ds : List α} (hcs : c ∉ cs) (hds : c ∉ ds)
    (h : xs ++ c :: cs = ys ++ c :: ds) : cs = ds := by
  rcases List.append_eq_append_iff.mp h with ⟨zs, _, hzs⟩ | ⟨zs, _, hzs⟩
  · cases zs with
    | nil => exact (List.cons.inj hzs).2
    | cons _ zs => exact absurd ((List.cons.inj hzs).2 ▸ List.mem_append_right _ List.mem_cons_self) hcs
  · cases zs with
    | nil => exact (List.cons.inj hzs).2.symm
    | cons _ zs => exact absurd ((List.cons.inj hzs).2 ▸ List.mem_append_right _ List.mem_cons_self) hds

/-- **An object is known by the warning** that it is left out. -/
theorem label_eq_of_leftOutText {p q : Placement} (hp : isIdentifier p.label = true)
    (hq : isIdentifier q.label = true) (h : p.leftOutText = q.leftOutText) : p.label = q.label := by
  have hblank : ∀ s : String, isIdentifier s = true → ' ' ∉ s.toList := fun s hs hmem =>
    absurd (isIdentifierChars_chars hs ' ' hmem) (by decide)
  have hshape : ∀ r : Placement, r.leftOutText = "Object '" ++ r.object.name ++ "' (alias" ++
      (" " ++ r.label) ++ ") has no relationship to the join and was left out" := by
    intro r
    have halias : "' (alias " = "' (alias" ++ " " := rfl
    simp only [Placement.leftOutText, Warning.text, toString, halias, String.append_assoc]
  -- A name may hold anything, also text in parentheses, so it is the last blank before the common end
  -- that sets off the alias.
  rw [hshape, hshape, String.append_left_inj] at h
  have hchars := congrArg String.toList h
  simp only [String.toList_append] at hchars
  exact String.toList_inj.mp (eq_of_append_cons_eq (hblank _ hp) (hblank _ hq) hchars)

theorem Filter.mem_warningsFrom {list : String} {i : Nat} {fs : List Filter} {w : Warning}
    (h : w ∈ Filter.warningsFrom list i fs) : ∃ path raw, w = .unsupportedOperator path raw := by
  induction fs generalizing i with
  | nil => cases h
  | cons f rest ih =>
    rcases List.mem_append.mp h with h | h
    · unfold Filter.warningsAt at h
      split at h
      · cases h
      · exact ⟨_, _, List.mem_singleton.mp h⟩
    · exact ih h

namespace JoinPlan

variable {a : Audience} {o : CompilerSettings} {plan : JoinPlan} {role : Role} {fs : List Filter}
  {cs : List Condition} {ws : List Warning}

theorem leftOut_notMem_of_condition (h : plan.condition o a role fs = .ok (cs, ws))
    (object label : String) : (Warning.leftOut object label).text ∉ ws.map Warning.text := by
  intro hmem
  obtain ⟨w, hw, htext⟩ := List.mem_map.mp hmem
  rcases condition_eq_ok h with ⟨_, _, rfl⟩ | ⟨_, p, c, _, hc, _⟩
  · cases hw
  · obtain ⟨_, rfl, _⟩ := p.condition_eq_ok_iff.mp hc
    obtain ⟨path, raw, rfl⟩ := Filter.mem_warningsFrom hw
    exact Warning.text_ne_leftOut path raw object label htext

theorem columns_of_condition (hvalid : a.validate = .ok ()) {strategy : JoinStrategy}
    (hplan : build a strategy = .ok plan) (h : plan.condition o a role fs = .ok (cs, ws)) :
    ∀ l ∈ cs.flatMap Condition.leaves, ∃ p ∈ plan.objects, ∃ f ∈ p.object.fields, l.1 = p.column f := by
  intro l hl
  rcases condition_eq_ok h with ⟨_, rfl, _⟩ | ⟨_, p, c, hp, hc, rfl⟩
  · cases hl
  · obtain ⟨asked, hall, hleaves, _⟩ := Placement.condition_carries hc
    rw [List.flatMap_singleton, hleaves] at hl
    obtain ⟨q, hq, rfl⟩ := List.mem_map.mp hl
    exact ⟨p, mem_of_target hvalid hplan hp, q.1, hall.mem_fields q hq, rfl⟩

end JoinPlan

/-! ## Listings -/

/-- A listing draws on objects of an audience, its sources. Its text introduces them, each under an
alias of its own; it selects all their columns that may be shown, and its conditions ask for no others
than theirs. Every other object has one warning, and by the graph strategy there is no other object. -/
structure DrawsOn (a : Audience) (o : CompileOptions) (limit : Option Nat) (s : Statement)
    (sources : List Placement) : Prop where
  configured : ∀ p ∈ sources, p ∈ a.objects
  aliases : (sources.map Placement.label).Nodup
  text : ∃ (origin : String) (condition : Condition), Introduces sources origin ∧
    (∀ l ∈ condition.leaves, ∃ p ∈ sources, ∃ f ∈ p.object.fields, l.1 = p.column f) ∧
    s.sql = "SELECT DISTINCT " ++ selectList "*" ((selection sources).map selected) ++ " " ++
      origin ++ condition.whereClause.textWith (Sql.mark o.dialect o.compiler.valueMode) 1 ++
      limit.elim "" fun n => " LIMIT " ++ toString n
  shown : ∀ p ∈ sources, (selection sources).filter (fun q => q.1.label = p.label) =
    p.object.displayable.map (p, ·)
  reported : ∀ p ∈ a.objects, (p ∈ sources ∧ p.leftOutText ∉ s.warnings) ∨
    (p ∉ sources ∧ s.warnings.count p.leftOutText = 1)
  complete : o.compiler.joinStrategy = .graph → sources.Perm a.objects ∧
    ∀ object label, (Warning.leftOut object label).text ∉ s.warnings

theorem JoinPlan.map_text_warnings (plan : JoinPlan) (ws : List Warning) :
    (plan.warnings ++ ws).map Warning.text =
      plan.leftOut.map Placement.leftOutText ++ ws.map Warning.text := by
  rw [List.map_append, warnings, List.map_map]
  rfl

/-- **The warnings of a plan** tell the objects that it leaves out from those that it selects from. -/
theorem JoinPlan.reported {a : Audience} (hvalid : a.validate = .ok ()) {plan : JoinPlan}
    {strategy : JoinStrategy} (h : build a strategy = .ok plan) {p : Placement} (hp : p ∈ a.objects) :
    (p ∈ plan.objects ∧ p.leftOutText ∉ plan.leftOut.map Placement.leftOutText) ∨
      (p ∉ plan.objects ∧ (plan.leftOut.map Placement.leftOutText).count p.leftOutText = 1) := by
  have hparts := perm_build hvalid h
  have hlabels := Audience.nodup_labels_of_validate hvalid
  have hleftOut : ∀ q ∈ plan.leftOut, q ∈ a.objects := fun q hq =>
    hparts.mem_iff.mp (List.mem_append_right _ hq)
  have hnodup := List.nodup_append.mp (hparts.nodup_iff.mpr (.of_map _ hlabels))
  have hinj : ∀ q ∈ a.objects, ∀ r ∈ a.objects, q.leftOutText = r.leftOutText → q = r := by
    intro q hq r hr htext
    have hvetted := Audience.vetted_of_validate hvalid
    exact List.inj_on_of_nodup_map hlabels hq hr
      (label_eq_of_leftOutText (hvetted q hq).label (hvetted r hr).label htext)
  rcases List.mem_append.mp (hparts.mem_iff.mpr hp) with hin | hout
  · refine Or.inl ⟨hin, fun hmem => ?_⟩
    obtain ⟨q, hq, htext⟩ := List.mem_map.mp hmem
    have hpq := hinj q (hleftOut q hq) p hp htext
    exact hnodup.2.2 p hin q hq hpq.symm
  · refine Or.inr ⟨fun hin => hnodup.2.2 p hin p hout rfl, ?_⟩
    refine List.count_eq_one_of_mem (hnodup.2.1.map_on fun q hq r hr => ?_)
      (List.mem_map_of_mem hout)
    exact hinj q (hleftOut q hq) r (hleftOut r hr)

namespace Audience

variable {a : Audience} {fs : FilterSet} {limit : Option Nat} {o : CompileOptions}

/-- **A listing uses the objects that it joins**: whenever it compiles, there are sources that all its
clauses draw on, and it warns of the other objects. -/
theorem listing_drawsOn {s : Statement} (h : a.listingStatement fs limit o = .ok s) :
    ∃ sources, DrawsOn a o limit s sources := by
  rw [listingStatement_eq] at h
  obtain ⟨q, hq, rfl⟩ := map_eq_ok_iff.mp h
  obtain ⟨plan, company, contact, w₁, w₂, hvalid, hplan, hcompany, hcontact, rfl⟩ := listing_eq_ok hq
  have hwarnings : (plan.warnings ++ w₁ ++ w₂).map Warning.text =
      plan.leftOut.map Placement.leftOutText ++ (w₁ ++ w₂).map Warning.text := by
    rw [List.append_assoc, plan.map_text_warnings]
  have hothers : ∀ object label,
      (Warning.leftOut object label).text ∉ (w₁ ++ w₂).map Warning.text := by
    intro object label
    rw [List.map_append, List.mem_append, not_or]
    exact ⟨JoinPlan.leftOut_notMem_of_condition hcompany object label,
      JoinPlan.leftOut_notMem_of_condition hcontact object label⟩
  have hcolumns : ∀ l ∈ (Condition.conjunction (company ++ contact)).leaves,
      ∃ p ∈ plan.objects, ∃ f ∈ p.object.fields, l.1 = p.column f := by
    rw [Condition.leaves_conjunction, List.flatMap_append]
    exact List.forall_mem_append.mpr ⟨JoinPlan.columns_of_condition hvalid hplan hcompany,
      JoinPlan.columns_of_condition hvalid hplan hcontact⟩
  have haliases := JoinPlan.nodup_labels hvalid hplan
  refine ⟨plan.objects, (JoinPlan.drawnFrom_build hplan).objects, haliases,
    ⟨_, _, plan.introduces_clause, hcolumns, ?_⟩, fun p => selection_filter haliases, fun p hp => ?_,
    fun hgraph => ?_⟩
  · rw [← flatMap_listingItems]
    exact (Sql.write_text o.dialect o.compiler.valueMode _).trans (textWith_listing limit _ _ _)
  · have hother := hothers p.object.name p.label
    have hreported := JoinPlan.reported hvalid hplan hp
    rw [Query.warnings_write, hwarnings, List.mem_append, List.count_append, Placement.leftOutText,
      or_iff_left hother, List.count_eq_zero.mpr hother]
    exact hreported
  · have hparts := JoinPlan.perm_build hvalid hplan
    rw [hgraph] at hplan
    have hnone := JoinPlan.leftOut_of_graph hvalid hplan
    rw [hnone, List.append_nil] at hparts
    rw [Query.warnings_write, hwarnings, hnone]
    exact ⟨hparts, hothers⟩

/-- The sample with events that no relationship mentions. -/
def eventful : Audience :=
  { Sample.audience with
    objects := Sample.audience.objects ++ [{ object := { table := "events" }, label := "e" }] }

/-- A listing warns that the events are left out, and does not draw on them. -/
theorem eventful_listing_drawsOn : ∃ s sources,
    eventful.listingStatement Sample.directors (some 10) {} = .ok s ∧
      DrawsOn eventful {} (some 10) s sources ∧
      s.warnings = ["Object 'events' (alias e) has no relationship to the join and was left out"] := by
  have hlisting : ∃ s, eventful.listingStatement Sample.directors (some 10) {} = .ok s ∧
      s.warnings = ["Object 'events' (alias e) has no relationship to the join and was left out"] :=
    ⟨_, rfl, rfl⟩
  obtain ⟨s, hs, hwarnings⟩ := hlisting
  obtain ⟨sources, hsources⟩ := listing_drawsOn hs
  exact ⟨s, sources, hs, hsources, hwarnings⟩

end Audience

end Targeting
