import Targeting.Proofs.Queries
import Targeting.Sample

/-!
# Filters and parameters

In bound mode the parameters of a statement are the operands of its filters: those of the company
filters in order, then those of the contact filters. The conditions stand in the text in that same
order, one for each filter, behind a `WHERE` that is there exactly if there are filters for it.

* `FilterSet.operands`: the operands of all filters;
* `ClauseOf`: the clause of comparisons with numbered places; `ClauseFrom`,
  `Condition.clauseFrom_whereClause`: the clause of comparisons with any marks;
* `ListingCarries`, `CountsCarry`, `CompanyCarries`, `ContactCarries`: what statements do with filters;
* **`Audience.statements_carry_filters`**: they do so whenever they compile.
-/

namespace Targeting

/-- The operands of all filters: those of the company filters, then those of the contact filters. -/
def FilterSet.operands (fs : FilterSet) : List Value :=
  fs.company.flatMap Filter.operands ++ fs.contact.flatMap Filter.operands

/-- The clause of comparisons whose places are numbered from `i` on. Without comparisons there is no
clause; otherwise the keyword is followed by all of them, once and in order. -/
def ClauseOf (d : Dialect) (i : Nat) : List (String × Comparison) → String → Prop
  | [], s => s = ""
  | l :: ls, s => ∃ text, s = " WHERE " ++ text ∧
    Woven (Condition.leafTexts (Sql.mark d .bound) i (l :: ls)) text

/-- The clause that is woven from texts; without texts there is none. -/
def ClauseFrom : List String → String → Prop
  | [], s => s = ""
  | t :: ts, s => ∃ text, s = " WHERE " ++ text ∧ Woven (t :: ts) text

theorem clauseOf_iff {d : Dialect} {i : Nat} {ls : List (String × Comparison)} {s : String} :
    ClauseOf d i ls s ↔ ClauseFrom (Condition.leafTexts (Sql.mark d .bound) i ls) s := by
  cases ls <;> rfl

namespace Condition

theorem Full.leaves_ne_nil {c : Condition} (h : c.Full) : c.leaves ≠ [] := by
  induction h with
  | compare column c => simp
  | @all cs hne _ ih =>
    obtain ⟨c, hc⟩ := List.exists_mem_of_ne_nil cs hne
    rw [leaves_all]
    exact fun hnil => ih c hc (List.flatMap_eq_nil_iff.mp hnil c hc)
  | @any cs hne _ ih =>
    obtain ⟨c, hc⟩ := List.exists_mem_of_ne_nil cs hne
    rw [leaves_any]
    exact fun hnil => ih c hc (List.flatMap_eq_nil_iff.mp hnil c hc)

/-- **The clause of a condition** is woven from its comparisons, with any marks. -/
theorem clauseFrom_whereClause {c : Condition} (h : c = all [] ∨ c.Full) (w : Nat → Value → String)
    (i : Nat) : ClauseFrom (leafTexts w i c.leaves) (c.whereClause.textWith w i) := by
  rcases h with rfl | h
  · rfl
  · obtain ⟨l, ls, hls⟩ := List.exists_cons_of_ne_nil h.leaves_ne_nil
    have htext := woven_text w h false i
    rw [whereClause, h.isEmpty, if_neg Bool.false_ne_true, Sql.textWith]
    rw [hls] at htext ⊢
    exact ⟨_, rfl, htext⟩

theorem clauseOf_whereClause {c : Condition} (h : c = all [] ∨ c.Full) (d : Dialect) (i : Nat) :
    ClauseOf d i c.leaves (c.whereClause.textWith (Sql.mark d .bound) i) :=
  clauseOf_iff.mpr (clauseFrom_whereClause h _ i)

theorem operands_whereClause {c : Condition} (h : c = all [] ∨ c.Full) :
    c.whereClause.operands = c.leaves.flatMap fun l => (leafSql l).operands := by
  rcases h with rfl | h
  · rfl
  · rw [whereClause, h.isEmpty, if_neg Bool.false_ne_true, Sql.operands, sql, operands_sqlAt]

end Condition

/-- A query in bound mode. -/
theorem Query.write_bound (q : Query) (o : CompileOptions) :
    q.write (o.withValueMode .bound) =
      { sql := q.sql.textWith (Sql.mark o.dialect .bound) 1, params := q.sql.operands,
        warnings := q.warnings.map Warning.text } := by
  rw [← Sql.bound_eq]
  rfl

/-! ## What statements do with filters -/

/-- A listing carries its filters: its parameters are their operands, and behind its head stands the
clause of one comparison for each of them. -/
def ListingCarries (a : Audience) (o : CompileOptions) (fs : FilterSet) (limit : Option Nat)
    (s : Statement) : Prop :=
  s.params = fs.operands ∧ ∃ plan parent child company contact clause,
    JoinPlan.build a o.compiler.joinStrategy = .ok plan ∧
    (fs.company ≠ [] → a.findRole o.compiler .parent = some parent) ∧
    (fs.contact ≠ [] → a.findRole o.compiler .child = some child) ∧
    parent.AsksAll fs.company company ∧ child.AsksAll fs.contact contact ∧
    ClauseOf o.dialect 1 (company.map parent.leaf ++ contact.map child.leaf) clause ∧
    s.sql = plan.listingHead ++ clause ++ (limit.elim "" fun n => " LIMIT " ++ toString n)

namespace Stage

/-- The clauses of a stage: that of the qualified parents for the company filters, and that of their
children for the contact filters, with places numbered through both. -/
def Clauses (st : Stage) (d : Dialect) (fs : FilterSet) (qualified members : String) : Prop :=
  ∃ company contact, st.parts.parent.AsksAll fs.company company ∧
    st.parts.child.AsksAll fs.contact contact ∧
    ClauseOf d 1 (company.map st.parts.parent.leaf) qualified ∧
    ClauseOf d (1 + (fs.company.flatMap Filter.operands).length)
      (contact.map st.parts.child.leaf) members

/-- The text that keeps the qualified parents, with a clause. -/
def qualifiedText (st : Stage) (clause : String) : String :=
  "WITH " ++ st.name ++ " AS (SELECT DISTINCT " ++ st.parts.parent.qualify st.key ++ " FROM " ++
    st.parts.parent.object.table ++ " " ++ st.parts.parent.label ++ clause ++ ")"

/-- The text of the counts, with both clauses. -/
def countsText (st : Stage) (qualified members : String) : String :=
  st.qualifiedText qualified ++ " SELECT (SELECT COUNT(DISTINCT " ++ st.key ++ ") FROM " ++ st.name ++
    ") AS company_count, (SELECT COUNT(DISTINCT " ++
    st.parts.child.qualify st.parts.child.object.primaryKey ++ ") " ++
    st.belonging st.parts.child ++ members ++ ") AS people_count"

/-- The text of a preview of an object, with the clauses of the qualified parents and of its own. -/
def previewText (st : Stage) (p : Placement) (qualified own : String) (limit : Nat) : String :=
  st.qualifiedText qualified ++ " SELECT " ++ selectList (p.qualify "*") p.previewItems ++ " " ++
    st.belonging p ++ own ++ " LIMIT " ++ toString limit

end Stage

/-- Counts carry their filters: the qualified parents have the clause of the company filters, and the
members that are counted have that of the contact filters. -/
def CountsCarry (a : Audience) (o : CompileOptions) (fs : FilterSet) (s : Statement) : Prop :=
  s.params = fs.operands ∧ ∃ st qualified members, a.stage o.compiler fs = .ok st ∧
    st.Clauses o.dialect fs qualified members ∧ s.sql = st.countsText qualified members

/-- The company side of a preview carries the company filters only. -/
def CompanyCarries (a : Audience) (o : CompileOptions) (fs : FilterSet) (requested : Option Nat)
    (s : Statement) : Prop :=
  s.params = fs.company.flatMap Filter.operands ∧ ∃ st qualified members,
    a.stage o.compiler fs = .ok st ∧ st.Clauses o.dialect fs qualified members ∧
    s.sql = st.previewText st.parts.parent qualified "" (o.compiler.previewRows requested)

/-- The contact side of a preview carries its filters in the same places as the counts do. -/
def ContactCarries (a : Audience) (o : CompileOptions) (fs : FilterSet) (requested : Option Nat)
    (s : Statement) : Prop :=
  s.params = fs.operands ∧ ∃ st qualified members, a.stage o.compiler fs = .ok st ∧
    st.Clauses o.dialect fs qualified members ∧
    s.sql = st.previewText st.parts.child qualified members (o.compiler.previewRows requested)

/-! ## From the conditions to the statements -/

/-- The condition of a list: one comparison for each filter, and no empty group unless there are no
filters at all. -/
theorem Placement.condition_carries {p : Placement} {o : CompilerSettings} {list : String}
    {fs : List Filter} {c : Condition} {ws : List Warning} (h : p.condition o list fs = .ok (c, ws)) :
    ∃ asked, p.AsksAll fs asked ∧ c.leaves = asked.map p.leaf ∧ (c = .all [] ∧ fs = [] ∨ c.Full) := by
  obtain ⟨_, _, asked, hall, rfl⟩ := p.condition_eq_ok_iff.mp h
  refine ⟨asked, hall, hall.leaves_grouped _, ?_⟩
  by_cases hfs : fs = []
  · subst hfs
    exact Or.inl ⟨AsksAll.grouped_nil _, rfl⟩
  · exact Or.inr (hall.full_grouped hfs _)

namespace Stage

variable {a : Audience} {o : CompilerSettings} {fs : FilterSet} {st : Stage}

/-- What the filters of a stage ask for, and the conditions that come of it. -/
theorem asked_of_stage (h : a.stage o fs = .ok st) : ∃ company contact,
    st.parts.parent.AsksAll fs.company company ∧ st.parts.child.AsksAll fs.contact contact ∧
      st.parentCondition.leaves = company.map st.parts.parent.leaf ∧
      st.childCondition.leaves = contact.map st.parts.child.leaf ∧
      (st.parentCondition = .all [] ∨ st.parentCondition.Full) ∧
      (st.childCondition = .all [] ∨ st.childCondition.Full) := by
  obtain ⟨_, _, _, _, _, hparent, hchild, _⟩ := Audience.stage_eq_ok h
  obtain ⟨company, hcompany, hleaves₁, hfull₁⟩ := Placement.condition_carries hparent
  obtain ⟨contact, hcontact, hleaves₂, hfull₂⟩ := Placement.condition_carries hchild
  exact ⟨company, contact, hcompany, hcontact, hleaves₁, hleaves₂, hfull₁.imp And.left id,
    hfull₂.imp And.left id⟩

/-- **The clauses of a stage** are those of its filters, and so are their operands. -/
theorem clauses_of_stage (h : a.stage o fs = .ok st) (d : Dialect) :
    let w := Sql.mark d .bound
    let operands := st.parentCondition.whereClause.operands
    operands = fs.company.flatMap Filter.operands ∧
      st.childCondition.whereClause.operands = fs.contact.flatMap Filter.operands ∧
      st.Clauses d fs (st.parentCondition.whereClause.textWith w 1)
        (st.childCondition.whereClause.textWith w (1 + operands.length)) := by
  obtain ⟨company, contact, hcompany, hcontact, hleaves₁, hleaves₂, hfull₁, hfull₂⟩ := asked_of_stage h
  have hops₁ : st.parentCondition.whereClause.operands = fs.company.flatMap Filter.operands := by
    rw [Condition.operands_whereClause hfull₁, hleaves₁, hcompany.operands]
  have hops₂ : st.childCondition.whereClause.operands = fs.contact.flatMap Filter.operands := by
    rw [Condition.operands_whereClause hfull₂, hleaves₂, hcontact.operands]
  refine ⟨hops₁, hops₂, company, contact, hcompany, hcontact, ?_, ?_⟩
  · rw [← hleaves₁]
    exact Condition.clauseOf_whereClause hfull₁ d 1
  · rw [← hleaves₂, ← hops₁]
    exact Condition.clauseOf_whereClause hfull₂ d _

theorem operands_qualified (st : Stage) :
    st.qualified.operands = st.parentCondition.whereClause.operands := by
  unfold qualified
  simp only [Sql.operands, Sql.operands_append, List.append_nil]

theorem textWith_qualified (st : Stage) (w : Nat → Value → String) (i : Nat) :
    st.qualified.textWith w i =
      st.qualifiedText (st.parentCondition.whereClause.textWith w i) := by
  unfold qualified qualifiedText qualifiedHead
  simp only [Sql.textWith, Sql.textWith_append, String.append_empty, String.append_assoc]

/-- The clause of the children, with its places numbered on after those of the parents. -/
def childClause (st : Stage) (w : Nat → Value → String) : String :=
  st.childCondition.whereClause.textWith w (1 + st.parentCondition.whereClause.operands.length)

theorem textWith_counts (st : Stage) (w : Nat → Value → String) : st.counts.sql.textWith w 1 =
    st.countsText (st.parentCondition.whereClause.textWith w 1) (st.childClause w) := by
  have htext : st.counts.sql.textWith w 1 =
      st.qualifiedText (st.parentCondition.whereClause.textWith w 1) ++ (st.countsHead ++
        (st.belonging st.parts.child ++ (st.childClause w ++ ") AS people_count"))) := by
    simp only [counts, members, Sql.textWith_append, Sql.textWith, textWith_qualified,
      operands_qualified, List.cons_append, String.append_empty, childClause]
  refine htext.trans ?_
  unfold countsHead countsText
  simp only [String.append_assoc]

theorem textWith_preview (st : Stage) (w : Nat → Value → String) (p : Placement) (own : Sql)
    (limit : Nat) : (st.preview p (.text (st.belonging p) :: own) limit).sql.textWith w 1 =
      st.previewText p (st.parentCondition.whereClause.textWith w 1)
        (own.textWith w (1 + st.parentCondition.whereClause.operands.length)) limit := by
  simp only [preview, Placement.previewHead, Sql.textWith_append, Sql.textWith, textWith_qualified,
    operands_qualified, List.cons_append, String.append_empty, previewText, String.append_assoc]

theorem operands_counts (st : Stage) : st.counts.sql.operands =
    st.parentCondition.whereClause.operands ++ st.childCondition.whereClause.operands := by
  simp only [counts, members, operands_qualified, Sql.operands, Sql.operands_append, List.append_nil]

theorem operands_preview (st : Stage) (p : Placement) (own : Sql) (limit : Nat) :
    (st.preview p (.text (st.belonging p) :: own) limit).sql.operands =
      st.parentCondition.whereClause.operands ++ own.operands := by
  simp only [preview, operands_qualified, Sql.operands, Sql.operands_append, List.cons_append,
    List.append_nil]

end Stage

/-- The condition for a role in a listing: it comes from the object that plays the role, and is missing
without filters. -/
theorem JoinPlan.condition_carries {plan : JoinPlan} {o : CompilerSettings} {a : Audience} {role : Role}
    {fs : List Filter} {cs : List Condition} {ws : List Warning}
    (h : plan.condition o a role fs = .ok (cs, ws)) :
    ∃ p asked, (fs ≠ [] → a.findRole o role = some p) ∧ p.AsksAll fs asked ∧
      cs.flatMap Condition.leaves = asked.map p.leaf ∧ ∀ c ∈ cs, c.Full := by
  rcases JoinPlan.condition_eq_ok h with ⟨rfl, rfl, _⟩ | ⟨hfs, p, c, hp, hc, rfl⟩
  · exact ⟨plan.root, [], fun h => absurd rfl h, .nil, rfl, by simp⟩
  · obtain ⟨asked, hall, hleaves, hfull⟩ := Placement.condition_carries hc
    refine ⟨p, asked, fun _ => (JoinPlan.target_eq_ok hp).1, hall, ?_, ?_⟩
    · rw [List.flatMap_singleton, hleaves]
    · rcases hfull with ⟨_, hnil⟩ | hfull
      · exact absurd hnil hfs
      · exact List.forall_mem_singleton.mpr hfull

namespace Audience

variable (a : Audience) (fs : FilterSet) (limit : Option Nat) (o : CompileOptions)

theorem listing_carries {s : Statement}
    (h : a.listingStatement fs limit (o.withValueMode .bound) = .ok s) :
    ListingCarries a o fs limit s := by
  rw [listingStatement_eq] at h
  obtain ⟨q, hq, rfl⟩ := map_eq_ok_iff.mp h
  obtain ⟨plan, cs, ds, w₁, w₂, _, hplan, hcs, hds, rfl⟩ := listing_eq_ok hq
  obtain ⟨parent, company, hparent, hcompany, hleaves₁, hfull₁⟩ := JoinPlan.condition_carries hcs
  obtain ⟨child, contact, hchild, hcontact, hleaves₂, hfull₂⟩ := JoinPlan.condition_carries hds
  generalize hc : Condition.conjunction (cs ++ ds) = c
  have hleaves : c.leaves = company.map parent.leaf ++ contact.map child.leaf := by
    rw [← hc, Condition.leaves_conjunction, List.flatMap_append, hleaves₁, hleaves₂]
  have hfull : c = .all [] ∨ c.Full := by
    by_cases hnil : cs ++ ds = []
    · exact Or.inl (by rw [← hc, hnil]; rfl)
    · refine Or.inr (hc ▸ Condition.full_conjunction hnil fun c hmem => ?_)
      rcases List.mem_append.mp hmem with hmem | hmem
      · exact hfull₁ c hmem
      · exact hfull₂ c hmem
  have hlimit : (limitClause limit).operands = [] := by cases limit <;> rfl
  have hclause := Condition.clauseOf_whereClause hfull o.dialect 1
  rw [hleaves] at hclause
  rw [Query.write_bound]
  refine ⟨?_, plan, parent, child, company, contact, _, hplan, hparent, hchild, hcompany, hcontact,
    hclause, ?_⟩
  · rw [Sql.operands, Sql.operands_append, hlimit, List.append_nil,
      Condition.operands_whereClause hfull, hleaves, List.flatMap_append, hcompany.operands,
      hcontact.operands, FilterSet.operands]
  · rw [Sql.textWith, Sql.textWith_append, String.append_assoc]
    cases limit with
    | none => rfl
    | some n => simp only [limitClause, Sql.textWith, String.append_empty, Option.elim]

theorem counts_carry {s : Statement}
    (h : a.countsStatement fs (o.withValueMode .bound) = .ok s) : CountsCarry a o fs s := by
  obtain ⟨st, hst, rfl⟩ := countsStatement_eq_ok_iff.mp h
  obtain ⟨hops₁, hops₂, hclauses⟩ := Stage.clauses_of_stage hst o.dialect
  rw [Query.write_bound]
  refine ⟨?_, st, _, _, hst, hclauses, st.textWith_counts _⟩
  rw [st.operands_counts, hops₁, hops₂, FilterSet.operands]

theorem company_carries {s : Statement}
    (h : a.companyStatement fs limit (o.withValueMode .bound) = .ok s) :
    CompanyCarries a o fs limit s := by
  obtain ⟨st, hst, rfl⟩ := companyStatement_eq_ok_iff.mp h
  obtain ⟨hops, _, hclauses⟩ := Stage.clauses_of_stage hst o.dialect
  rw [Query.write_bound]
  refine ⟨?_, st, _, _, hst, hclauses, st.textWith_preview _ _ [] _⟩
  rw [Stage.companyPreview, st.operands_preview, hops, Sql.operands, List.append_nil]

theorem contact_carries {s : Statement}
    (h : a.contactStatement fs limit (o.withValueMode .bound) = .ok s) :
    ContactCarries a o fs limit s := by
  obtain ⟨st, hst, rfl⟩ := contactStatement_eq_ok_iff.mp h
  obtain ⟨hops₁, hops₂, hclauses⟩ := Stage.clauses_of_stage hst o.dialect
  rw [Query.write_bound]
  refine ⟨?_, st, _, _, hst, hclauses, st.textWith_preview _ _ _ _⟩
  rw [Stage.contactPreview, Stage.members, st.operands_preview, hops₁, hops₂, FilterSet.operands]

/-- **Every filter reaches the parameters**, once and in order, and so does its condition the text:
whenever a statement compiles in bound mode, it carries its filters. -/
theorem statements_carry_filters :
    (∀ s, a.listingStatement fs limit (o.withValueMode .bound) = .ok s →
        ListingCarries a o fs limit s) ∧
      (∀ s, a.countsStatement fs (o.withValueMode .bound) = .ok s → CountsCarry a o fs s) ∧
      (∀ s, a.companyStatement fs limit (o.withValueMode .bound) = .ok s →
        CompanyCarries a o fs limit s) ∧
      ∀ s, a.contactStatement fs limit (o.withValueMode .bound) = .ok s →
        ContactCarries a o fs limit s :=
  ⟨fun _ => listing_carries a fs limit o, fun _ => counts_carry a fs o,
    fun _ => company_carries a fs limit o, fun _ => contact_carries a fs limit o⟩

/-- The filters of the sample reach all four statements. -/
theorem sample_statements_carry_filters :
    (∃ s, Sample.audience.listingStatement Sample.directors (some 10)
        (({} : CompileOptions).withValueMode .bound) = .ok s ∧
          ListingCarries Sample.audience {} Sample.directors (some 10) s) ∧
      (∃ s, Sample.audience.countsStatement Sample.directors
        (({} : CompileOptions).withValueMode .bound) = .ok s ∧
          CountsCarry Sample.audience {} Sample.directors s) ∧
      (∃ s, Sample.audience.companyStatement Sample.directors (some 10)
        (({} : CompileOptions).withValueMode .bound) = .ok s ∧
          CompanyCarries Sample.audience {} Sample.directors (some 10) s) ∧
      ∃ s, Sample.audience.contactStatement Sample.directors (some 10)
        (({} : CompileOptions).withValueMode .bound) = .ok s ∧
          ContactCarries Sample.audience {} Sample.directors (some 10) s := by
  obtain ⟨hlisting, hcounts, hcompany, hcontact⟩ :=
    statements_carry_filters Sample.audience Sample.directors (some 10) {}
  exact ⟨⟨_, rfl, hlisting _ rfl⟩, ⟨_, rfl, hcounts _ rfl⟩, ⟨_, rfl, hcompany _ rfl⟩,
    ⟨_, rfl, hcontact _ rfl⟩⟩

end Audience

end Targeting
