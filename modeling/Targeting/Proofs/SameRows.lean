import Targeting.Proofs.Parameters

/-!
# Counts and previews of the same rows

Counts and the two sides of a preview all begin with the query that keeps the qualified parents, and the
children that are counted are the ones that are shown. So whoever sees the number of rows and some of
the rows sees the same rows, for every dialect and in both value modes.

* `Stage.rows`: the text of the rows of an object, with their clause; `Stage.countsText_eq`,
  `Stage.previewText_eq`: where it stands in the texts of counts and previews;
* `SameRows`: counts and previews share their parts; **`Audience.counts_previews_sameRows`**.
-/

namespace Targeting

namespace Stage

/-! ## Parts of the texts -/

/-- The rows of an object that belong to a qualified parent, with a clause behind them. -/
def rows (st : Stage) (p : Placement) (clause : String) : String :=
  "FROM " ++ p.object.table ++ " " ++ p.label ++ " INNER JOIN " ++ st.name ++ " ON " ++
    p.qualify st.key ++ " = " ++ st.name ++ "." ++ st.key ++ clause

theorem rows_eq (st : Stage) (p : Placement) (clause : String) :
    st.rows p clause = st.belonging p ++ clause := rfl

theorem childClause_eq (st : Stage) (w : Nat → Value → String) :
    st.childClause w = "" ∨ ∃ text, st.childClause w = " WHERE " ++ text := by
  rw [childClause]
  generalize 1 + st.parentCondition.whereClause.operands.length = i
  unfold Condition.whereClause
  split
  · exact Or.inl rfl
  · exact Or.inr ⟨_, rfl⟩

variable (st : Stage)

@[simp]
theorem warnings_counts : st.counts.warnings = st.warnings := rfl

@[simp]
theorem warnings_companyPreview (limit : Nat) : (st.companyPreview limit).warnings = st.warnings := rfl

@[simp]
theorem warnings_contactPreview (limit : Nat) : (st.contactPreview limit).warnings = st.warnings := rfl

theorem countsText_eq (qualified own : String) : st.countsText qualified own =
    st.qualifiedText qualified ++ (" SELECT (SELECT COUNT(DISTINCT " ++ st.key ++ ") FROM " ++
      st.name ++ ") AS company_count, (SELECT COUNT(DISTINCT " ++
      st.parts.child.qualify st.parts.child.object.primaryKey ++ ") ") ++
      st.rows st.parts.child own ++ ") AS people_count" := by
  simp only [countsText, rows_eq, String.append_assoc]

theorem previewText_eq (p : Placement) (qualified own : String) (limit : Nat) :
    st.previewText p qualified own limit = st.qualifiedText qualified ++
      (" SELECT " ++ selectList (p.qualify "*") p.previewItems ++ " ") ++ st.rows p own ++
      (" LIMIT " ++ toString limit) := by
  simp only [previewText, rows_eq, String.append_assoc]

end Stage

theorem Sql.write_params_congr {q r : Sql} (h : q.operands = r.operands) (d : Dialect)
    (mode : ValueMode) : (q.write d mode).params = (r.write d mode).params := by
  cases mode with
  | bound => exact h
  | inline => rfl

/-! ## Statements -/

/-- Counts and both sides of a preview qualify the same rows: all of them begin with the text `cte`, and
the parameters of that are those of the company side. Between what is selected and the end, the counts
and the contact side have the same text and the same parameters. -/
structure SameRows (st : Stage) (o : CompileOptions) (limit : Nat)
    (counted parents children : Statement) (cte own : String) : Prop where
  qualified : st.qualified.write o.dialect o.compiler.valueMode = ⟨cte, parents.params⟩
  clause : own = "" ∨ ∃ text, own = " WHERE " ++ text
  counts : counted.sql = cte ++ (" SELECT (SELECT COUNT(DISTINCT " ++ st.key ++ ") FROM " ++
    st.name ++ ") AS company_count, (SELECT COUNT(DISTINCT " ++
    st.parts.child.qualify st.parts.child.object.primaryKey ++ ") ") ++
    st.rows st.parts.child own ++ ") AS people_count"
  company : parents.sql = cte ++ (" SELECT " ++
    selectList (st.parts.parent.qualify "*") st.parts.parent.previewItems ++ " ") ++
    st.rows st.parts.parent "" ++ (" LIMIT " ++ toString limit)
  contact : children.sql = cte ++ (" SELECT " ++
    selectList (st.parts.child.qualify "*") st.parts.child.previewItems ++ " ") ++
    st.rows st.parts.child own ++ (" LIMIT " ++ toString limit)
  params : children.params = counted.params
  warnings : parents.warnings = counted.warnings ∧ children.warnings = counted.warnings

namespace Audience

variable (a : Audience) (fs : FilterSet) (requested : Option Nat) (o : CompileOptions)

/-- **Counts and previews qualify the same rows**, whatever they are asked for: they fail with the same
error, or all of them compile and share their parts. -/
theorem counts_previews_sameRows :
    (∃ e, a.countsStatement fs o = .error e ∧ a.companyStatement fs requested o = .error e ∧
        a.contactStatement fs requested o = .error e) ∨
      ∃ st counted parents children cte own, a.stage o.compiler fs = .ok st ∧
        a.countsStatement fs o = .ok counted ∧ a.companyStatement fs requested o = .ok parents ∧
        a.contactStatement fs requested o = .ok children ∧
        SameRows st o (o.compiler.previewRows requested) counted parents children cte own := by
  rw [countsStatement_of_stage, companyStatement_of_stage, contactStatement_of_stage]
  cases a.stage o.compiler fs with
  | error e => exact Or.inl ⟨e, rfl, rfl, rfl⟩
  | ok st =>
    let w := Sql.mark o.dialect o.compiler.valueMode
    let limit := o.compiler.previewRows requested
    have hcte : (st.qualified.write o.dialect o.compiler.valueMode).text =
        st.qualifiedText (st.parentCondition.whereClause.textWith w 1) :=
      (Sql.write_text _ _ _).trans (st.textWith_qualified w 1)
    have hcompany : st.qualified.operands = (st.companyPreview limit).sql.operands := by
      rw [Stage.companyPreview, st.operands_preview, st.operands_qualified, Sql.operands,
        List.append_nil]
    have hcontact : (st.contactPreview limit).sql.operands = st.counts.sql.operands :=
      (st.operands_preview _ _ _).trans st.operands_counts.symm
    refine Or.inr ⟨st, _, _, _, st.qualifiedText (st.parentCondition.whereClause.textWith w 1),
      st.childClause w, rfl, rfl, rfl, rfl, ?_⟩
    constructor
    · exact congrArg₂ Sql.Written.mk hcte (Sql.write_params_congr hcompany _ _)
    · exact st.childClause_eq w
    · exact (Sql.write_text _ _ _).trans ((st.textWith_counts w).trans (st.countsText_eq _ _))
    · exact (Sql.write_text _ _ _).trans
        ((st.textWith_preview w _ [] _).trans (st.previewText_eq _ _ _ _))
    · exact (Sql.write_text _ _ _).trans
        ((st.textWith_preview w _ _ _).trans (st.previewText_eq _ _ _ _))
    · exact Sql.write_params_congr hcontact _ _
    · simp only [Query.warnings_write, Stage.warnings_companyPreview, Stage.warnings_contactPreview,
        Stage.warnings_counts, and_self]

end Audience

end Targeting
