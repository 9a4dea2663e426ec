import Targeting.Filter.Format
import Targeting.Proofs.Filling

/-!
# Lists of values

What filters are written as when a list of values is searched for: a constant if the list is empty, and
otherwise a list with one place, or one literal, for each of the values. This takes values that are texts
and numbers. A list inside the list would be a single operand that no literal can hold.

* `LiteralOf`, `Filter.Written`, `Placement.WrittenAll`: the two texts of a filter, and of all of them;
* `Sql.textWith_operandList`: a list of operands; **`Filter.written_of_build`**: the texts of a filter;
* `Stage.clauseFrom_counts`, `CountsWritten`: counts with their filters;
* **`Audience.countsWritten_iff`**: when they are written so.
-/

namespace Targeting

/-! ## The texts of filters -/

/-- A text is the literal of a text or of a number. -/
def LiteralOf (v : Value) (s : String) : Prop := ∃ ts, Fills v ts ∧ Lexes s ts

/-- What a filter on a column is written as, with places numbered from `i` on and with literals: a
comparison with one operand, a membership in a list with as many places as literals, or a constant for
the membership in an empty list. -/
inductive Filter.Written (f : Filter) (d : Dialect) (i : Nat) (column : String) : String → String → Prop
  | compared {operator literal : String} {v : Value} (hscalar : f.operand.isList = false)
    (hop : operator ∈ [" = ", " != ", " > ", " < ", " LIKE ", " NOT LIKE "])
    (hv : f.operands = [v]) (hliteral : LiteralOf v literal) :
    f.Written d i column (column ++ operator ++ d.placeholder i) (column ++ operator ++ literal)
  | listed {keyword : String} {items : List Operand} {literals : List String}
    (hitems : f.operand = .list items) (hne : items ≠ []) (hlength : literals.length = items.length)
    (hkeyword : f.chosen = .isIn ∧ keyword = " IN (" ∨ f.chosen = .notIn ∧ keyword = " NOT IN (")
    (hliterals : List.Forall₂ LiteralOf f.operands literals) :
    f.Written d i column
      (column ++ keyword ++ ", ".intercalate ((List.range' i items.length).map d.placeholder) ++ ")")
      (column ++ keyword ++ ", ".intercalate literals ++ ")")
  | empty {constant : String} (hitems : f.operand = .list [])
    (hconstant : f.chosen = .isIn ∧ constant = "1=0" ∨ f.chosen = .notIn ∧ constant = "1=1") :
    f.Written d i column constant constant

/-- What filters on an object are written as, each on the column of its field. -/
inductive Placement.WrittenAll (p : Placement) (d : Dialect) :
    Nat → List Filter → List String → List String → Prop
  | nil (i : Nat) : p.WrittenAll d i [] [] []
  | cons {i : Nat} {f : Filter} {field : Field} {fs : List Filter} {s t : String}
    {ss ts : List String} (hfield : p.resolveFor f.chosen f.field = .ok field)
    (h : f.Written d i (p.column field) s t) (hrest : p.WrittenAll d (i + f.operands.length) fs ss ts) :
    p.WrittenAll d i (f :: fs) (s :: ss) (t :: ts)

/-! ## Comparisons -/

/-- **Operands in a list** are written with commas in between. -/
theorem Sql.textWith_operandList (w : Nat → Value → String) (i : Nat) (vs : List Value) :
    textWith w i (operandList vs) = ", ".intercalate (marks w i vs) := by
  fun_induction operandList vs generalizing i with
  | case1 => rfl
  | case2 v => simp [textWith, marks]
  | case3 v u rest ih =>
    rw [textWith, textWith, ih, marks, marks, marks, String.intercalate_cons_cons, String.append_assoc]

theorem Sql.textWith_membership (s : String) (vs : List Value) (w : Nat → Value → String) (i : Nat) :
    textWith w i (.text s :: (operandList vs ++ [.text ")"])) =
      s ++ ", ".intercalate (marks w i vs) ++ ")" := by
  simp only [textWith, textWith_append, textWith_operandList, String.append_empty, String.append_assoc]

/-- A comparison with a single value has one operand behind its operator. -/
theorem Comparison.sql_single (op : Operator) {v : Value} (hv : v ≠ .null) (column : String) :
    ∃ operator ∈ [" = ", " != ", " > ", " < ", " LIKE ", " NOT LIKE "], ∃ u,
      (single op v).sql column = [.text (column ++ operator), .operand u] := by
  have hequal : (equal v).sql column = [.text (column ++ " = "), .operand v] := by
    rw [sql]
    exact hv
  have hnotEqual : (notEqual v).sql column = [.text (column ++ " != "), .operand v] := by
    rw [sql]
    exact hv
  cases op with
  | equals | isIn => exact ⟨" = ", by decide, v, hequal⟩
  | notEquals | notIn => exact ⟨" != ", by decide, v, hnotEqual⟩
  | greaterThan => exact ⟨" > ", by decide, v, rfl⟩
  | lessThan => exact ⟨" < ", by decide, v, rfl⟩
  | contains => exact ⟨" LIKE ", by decide, _, rfl⟩
  | notContains => exact ⟨" NOT LIKE ", by decide, _, rfl⟩

theorem literalOf_literals {vs : List Value} (h : ∀ v ∈ vs, v.isFilling = true) :
    List.Forall₂ LiteralOf vs (vs.map Value.literal) := by
  rw [List.forall₂_map_right_iff, List.forall₂_same]
  exact fun v hv => v.exists_fills (h v hv)

namespace Filter

variable {f : Filter}

theorem written_listed {items : List Operand} {keyword : String} (hitems : f.operand = .list items)
    (hne : items ≠ [])
    (hkeyword : f.chosen = .isIn ∧ keyword = " IN (" ∨ f.chosen = .notIn ∧ keyword = " NOT IN (")
    (hvalues : ∀ v ∈ f.operands, v.isFilling = true) (d : Dialect) (i : Nat) (column : String)
    {q : Sql} (hq : q = .text (column ++ keyword) ::
      (Sql.operandList (Operand.toValues items) ++ [.text ")"])) :
    f.Written d i column (q.textWith (Sql.mark d .bound) i) (q.textWith (Sql.mark d .inline) i) := by
  have hoperands := operands_list hitems (hkeyword.imp And.left And.left)
  have hlength := Operand.length_toValues items
  have hliterals : List.Forall₂ LiteralOf f.operands ((Operand.toValues items).map Value.literal) := by
    rw [← hoperands]
    exact literalOf_literals hvalues
  rw [hq, Sql.textWith_membership, Sql.textWith_membership, Sql.marks_bound, Sql.marks_inline, hlength]
  exact .listed hitems hne (by rw [List.length_map, hlength]) hkeyword hliterals

/-- **A flat filter that can be used** is written in one of the three ways. -/
theorem written_of_build {c : Comparison} (h : Comparison.build f.chosen f.operand = .ok c)
    (hflat : f.operand.isFlat = true) (d : Dialect) (i : Nat) (column : String) :
    f.Written d i column ((c.sql column).textWith (Sql.mark d .bound) i)
      ((c.sql column).textWith (Sql.mark d .inline) i) := by
  have hvalues := isFilling_operands hflat h
  rcases Comparison.build_eq_ok h with ⟨hscalar, hc⟩ | ⟨items, hitems, hlist⟩
  · obtain ⟨operator, hop, u, hsql⟩ :=
      Comparison.sql_single f.chosen f.operand.toValue_ne_null column
    rw [← hc] at hsql
    have hoperands : f.operands = [u] := by
      rw [← operands_of_build h column, hsql]
      rfl
    have hliteral := u.exists_fills (hvalues u (hoperands ▸ List.mem_singleton_self u))
    rw [hsql]
    simp only [Sql.textWith, String.append_empty]
    exact .compared hscalar hop hoperands hliteral
  · cases items with
    | nil =>
      rcases hlist with ⟨hop, rfl⟩ | ⟨hop, rfl⟩
      · exact .empty hitems (Or.inl ⟨hop, rfl⟩)
      · exact .empty hitems (Or.inr ⟨hop, rfl⟩)
    | cons item items =>
      rcases hlist with ⟨hop, rfl⟩ | ⟨hop, rfl⟩
      · exact written_listed hitems (List.cons_ne_nil _ _) (Or.inl ⟨hop, rfl⟩) hvalues d i column rfl
      · exact written_listed hitems (List.cons_ne_nil _ _) (Or.inr ⟨hop, rfl⟩) hvalues d i column rfl

end Filter

/-! ## Lists of filters -/

theorem Placement.AsksAll.writtenAll {p : Placement} {fs : List Filter} {asked : List (Field × Comparison)}
    (h : p.AsksAll fs asked) (hflat : ∀ f ∈ fs, f.operand.isFlat = true) (d : Dialect) (i : Nat) :
    p.WrittenAll d i fs (Condition.leafTexts (Sql.mark d .bound) i (asked.map p.leaf))
      (Condition.leafTexts (Sql.mark d .inline) i (asked.map p.leaf)) := by
  induction h generalizing i with
  | nil => exact .nil i
  | @cons f q fs asked hasks _ ih =>
    obtain ⟨hf, hrest⟩ := List.forall_mem_cons.mp hflat
    have hoperands := Filter.operands_of_build hasks.built (p.column q.1)
    exact .cons hasks.resolved (Filter.written_of_build hasks.built hf d i _)
      (hoperands ▸ ih hrest (i + ((q.2.sql (p.column q.1)).operands).length))

/-- **A list inside the list of a filter** is an operand of its own, and neither a text nor a number. -/
theorem Filter.isFlat_of_operands {f : Filter} {c : Comparison}
    (h : Comparison.build f.chosen f.operand = .ok c) (hvalues : ∀ v ∈ f.operands, v.isFilling = true) :
    f.operand.isFlat = true := by
  rcases Comparison.build_eq_ok h with ⟨hscalar, _⟩ | ⟨items, hitems, hlist⟩
  · cases hoperand : f.operand with
    | list items =>
      rw [hoperand] at hscalar
      cases hscalar
    | _ => rfl
  · rw [hitems, Operand.isFlat_list]
    rw [operands_list hitems (hlist.imp And.left And.left)] at hvalues
    exact Operand.isList_of_toValues hvalues

theorem Placement.AsksAll.isFlat {p : Placement} {fs : List Filter} {asked : List (Field × Comparison)}
    (h : p.AsksAll fs asked) (hvalues : ∀ v ∈ fs.flatMap Filter.operands, v.isFilling = true) :
    ∀ f ∈ fs, f.operand.isFlat = true := by
  induction h with
  | nil => exact List.forall_mem_nil _
  | cons hasks _ ih =>
    rw [List.flatMap_cons, List.forall_mem_append] at hvalues
    exact List.forall_mem_cons.mpr
      ⟨Filter.isFlat_of_operands hasks.built hvalues.1, ih hvalues.2⟩

/-! ## Counts -/

/-- Counts in both value modes: all parameters are texts and numbers, the two clauses consist of the
filters as they are written in the two modes, and all else is the same text. -/
structure CountsWritten (a : Audience) (o : CompileOptions) (fs : FilterSet) (bound inline : Statement) :
    Prop where
  scalars : ∀ v ∈ bound.params, v.isFilling = true
  texts : ∃ (st : Stage) (company contact companyLiterals contactLiterals : List String)
    (qualified members qualifiedInline membersInline : String),
    a.stage o.compiler fs = .ok st ∧
    st.parts.parent.WrittenAll o.dialect 1 fs.company company companyLiterals ∧
    st.parts.child.WrittenAll o.dialect (1 + (fs.company.flatMap Filter.operands).length) fs.contact
      contact contactLiterals ∧
    ClauseFrom company qualified ∧ ClauseFrom contact members ∧
    ClauseFrom companyLiterals qualifiedInline ∧ ClauseFrom contactLiterals membersInline ∧
    bound.sql = st.countsText qualified members ∧
    inline.sql = st.countsText qualifiedInline membersInline

/-- **The text of counts** has a clause of the company filters and one of the contact filters, however their
operands are written. -/
theorem Stage.clauseFrom_counts {a : Audience} {o : CompilerSettings} {fs : FilterSet} {st : Stage}
    (h : a.stage o fs = .ok st) (w : Nat → Value → String) : ∃ qualified members,
      ClauseFrom (Condition.leafTexts w 1 st.parentCondition.leaves) qualified ∧
      ClauseFrom (Condition.leafTexts w (1 + (fs.company.flatMap Filter.operands).length)
        st.childCondition.leaves) members ∧
      st.counts.sql.textWith w 1 = st.countsText qualified members := by
  obtain ⟨_, _, _, _, _, _, hparent, hchild⟩ := asked_of_stage h
  have htext := st.textWith_counts w
  rw [childClause, (clauses_of_stage h .postgres).1] at htext
  exact ⟨_, _, Condition.clauseFrom_whereClause hparent _ _, Condition.clauseFrom_whereClause hchild _ _,
    htext⟩

namespace Audience

variable (a : Audience) {fs : FilterSet} {o : CompileOptions}

/-- **Filters that an audience can be counted by are written well** exactly if they are flat: then all
parameters are texts and numbers, a list is written with one place or one literal for each of its members,
and an empty one as a constant. -/
theorem countsWritten_iff {s : Statement} (h : a.countsStatement fs o = .ok s) :
    ∃ bound inline, a.countsStatement fs (o.withValueMode .bound) = .ok bound ∧
      a.countsStatement fs (o.withValueMode .inline) = .ok inline ∧
      (CountsWritten a o fs bound inline ↔ fs.isFlat = true) := by
  obtain ⟨st, hst, _⟩ := countsStatement_eq_ok_iff.mp h
  have hbound : a.countsStatement fs (o.withValueMode .bound) =
      .ok (st.counts.write (o.withValueMode .bound)) :=
    countsStatement_eq_ok_iff.mpr ⟨st, hst, rfl⟩
  have hinline : a.countsStatement fs (o.withValueMode .inline) =
      .ok (st.counts.write (o.withValueMode .inline)) :=
    countsStatement_eq_ok_iff.mpr ⟨st, hst, rfl⟩
  have hparams := (a.counts_carry fs o hbound).1
  obtain ⟨company, contact, hcompany, hcontact, hparent, hchild, _⟩ := Stage.asked_of_stage hst
  refine ⟨_, _, hbound, hinline, fun hwritten => ?_, fun hflat => ?_⟩
  · have hvalues := hwritten.scalars
    rw [hparams, FilterSet.operands, List.forall_mem_append] at hvalues
    exact FilterSet.isFlat_iff.mpr ⟨hcompany.isFlat hvalues.1, hcontact.isFlat hvalues.2⟩
  · obtain ⟨hflat₁, hflat₂⟩ := FilterSet.isFlat_iff.mp hflat
    constructor
    · rw [hparams, FilterSet.operands]
      exact List.forall_mem_append.mpr
        ⟨hcompany.isFilling_operands hflat₁, hcontact.isFilling_operands hflat₂⟩
    · obtain ⟨qualified, members, hqualified, hmembers, hsql⟩ :=
        Stage.clauseFrom_counts hst (Sql.mark o.dialect .bound)
      obtain ⟨qualified', members', hqualified', hmembers', hsql'⟩ :=
        Stage.clauseFrom_counts hst (Sql.mark o.dialect .inline)
      rw [hparent] at hqualified hqualified'
      rw [hchild] at hmembers hmembers'
      exact ⟨st, _, _, _, _, _, _, _, _, hst, hcompany.writtenAll hflat₁ o.dialect 1,
        hcontact.writtenAll hflat₂ o.dialect _, hqualified, hmembers, hqualified', hmembers',
        (Sql.write_text o.dialect .bound _).trans hsql, (Sql.write_text o.dialect .inline _).trans hsql'⟩

/-- Companies in two countries or in none, and their directors. -/
def countries : FilterSet where
  company :=
    [{ Sample.filter "country" .isIn "" with operand := .list [.string "USA", .string "Canada"] },
      { Sample.filter "industry" .notIn "" with operand := .list [] }]
  contact := [Sample.filter "job_title" .contains "Director"]

/-- The sample is counted by a list of two texts and by an empty list. -/
theorem countries_countsWritten : ∃ s bound inline, Sample.audience.countsStatement countries {} = .ok s ∧
    Sample.audience.countsStatement countries (({} : CompileOptions).withValueMode .bound) = .ok bound ∧
    Sample.audience.countsStatement countries (({} : CompileOptions).withValueMode .inline) = .ok inline ∧
    CountsWritten Sample.audience {} countries bound inline := by
  obtain ⟨s, hs⟩ : ∃ s, Sample.audience.countsStatement countries {} = .ok s := ⟨_, rfl⟩
  obtain ⟨bound, inline, hbound, hinline, hwritten⟩ := Sample.audience.countsWritten_iff hs
  exact ⟨s, bound, inline, hs, hbound, hinline, hwritten.mpr (by decide)⟩

/-- A specification with a filter for the countries of a list in which there are lists. -/
def nested : Json :=
  .object [("companyFilters", .array [.object [("field", .string "country"), ("operator", .string "in"),
    ("value", .array [.array [], .array [.string "USA", .string "Canada"]])]])]

/-- **Lists inside lists** go to the warehouse as parameters, and leave a gap among the literals. -/
theorem nested_not_countsWritten : ∃ fs bound inline, FilterSet.ofJson nested = .ok fs ∧
    Sample.audience.countsStatement fs (({} : CompileOptions).withValueMode .bound) = .ok bound ∧
    Sample.audience.countsStatement fs (({} : CompileOptions).withValueMode .inline) = .ok inline ∧
    bound.params = [.list [], .list [.string "USA", .string "Canada"]] ∧
    inline.sql = "WITH qualified_companies AS (SELECT DISTINCT c.company_id FROM companies c" ++
      " WHERE c.country IN (, 'USA', 'Canada')) SELECT (SELECT COUNT(DISTINCT company_id)" ++
      " FROM qualified_companies) AS company_count, (SELECT COUNT(DISTINCT p.id) FROM contacts p" ++
      " INNER JOIN qualified_companies ON p.company_id = qualified_companies.company_id) AS people_count" ∧
    ¬ CountsWritten Sample.audience {} fs bound inline := by
  refine ⟨_, _, _, rfl, rfl, rfl, rfl, by decide +kernel, fun hwritten => ?_⟩
  have hlist : Value.isFilling (.list []) = true := hwritten.scalars _ List.mem_cons_self
  cases hlist

end Audience

end Targeting
