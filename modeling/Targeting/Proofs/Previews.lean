import Targeting.Execution.Answer
import Targeting.Proofs.Parameters
import Targeting.Proofs.Running

/-!
# Previews that are run

Both sides of a preview are queried at the same time. Each of the two queries ends in its own way and at
its own time; a preview comes of them only if both succeed, and in which order they are over makes no
difference to it. Neither side shows more rows than the cap of the settings, for which both the queries and
the preview see.

* `CompilerSettings.previewRows_eq`, `LimitedTo`, `Stage.limitedTo_preview`: the number of rows in a text;
* `previewIn`: what a preview comes to if its queries are over in an order, `Audience.outcome_runPreview`;
* `AllOrNothing`: a preview comes of two queries, or an error of one of them; `allOrNothing_previewIn`: in
  whatever order they are over;
* `Previewed`: a preview of two statements; **`Audience.runPreview_previewed`**: every preview that is run.
-/

namespace Targeting

/-! ## The number of rows -/

theorem CompilerSettings.previewRows_eq (o : CompilerSettings) (requested : Option Nat) :
    o.previewRows requested =
      min (requested.getD o.previewLimit.toNat) o.previewLimit.toNat := by
  cases requested with
  | none => exact (Nat.min_self _).symm
  | some n => rfl

/-- A text asks for so many rows at its end. -/
def LimitedTo (n : Nat) (s : Statement) : Prop := ∃ text, s.sql = text ++ " LIMIT " ++ toString n

theorem Stage.limitedTo_preview (st : Stage) (p : Placement) (own : Sql) (n : Nat) (o : CompileOptions) :
    LimitedTo n ((st.preview p (.text (st.belonging p) :: own) n).write o) := by
  have htext := (Sql.write_text o.dialect o.compiler.valueMode _).trans
    (st.textWith_preview (Sql.mark o.dialect o.compiler.valueMode) p own n)
  rw [previewText] at htext
  exact ⟨_, htext⟩

/-! ## Two queries in any order -/

/-- What a preview of so many rows comes to, if the queries for both sides are over in an order. -/
def previewIn (order : Order) (n : Nat) (company contact : Except Error (List Row)) :
    Except Error Preview :=
  (joined order company contact).map fun rows =>
    { company := rows.1.take n, contact := rows.2.take n }

/-- A preview comes of two queries, all or nothing. It shows the first rows of both sides exactly if both
queries succeed, and if one of them fails it is the error of one that fails. -/
structure AllOrNothing (n : Nat) (company contact : Except Error (List Row))
    (preview : Except Error Preview) : Prop where
  shown : ∀ p, preview = .ok p ↔ ∃ rows more, company = .ok rows ∧ contact = .ok more ∧
    p = { company := rows.take n, contact := more.take n }
  failing : ∀ e, company = .error e ∨ contact = .error e →
    ∃ f, preview = .error f ∧ (company = .error f ∨ contact = .error f)

/-- **In whatever order two queries are over**, their preview is all or nothing. -/
theorem allOrNothing_previewIn (order : Order) (n : Nat) (company contact : Except Error (List Row)) :
    AllOrNothing n company contact (previewIn order n company contact) := by
  constructor
  · intro p
    rw [previewIn, map_eq_ok_iff]
    constructor
    · rintro ⟨⟨rows, more⟩, hjoined, rfl⟩
      obtain ⟨hrows, hmore⟩ := joined_eq_ok_iff.mp hjoined
      exact ⟨rows, more, hrows, hmore, rfl⟩
    · rintro ⟨rows, more, hrows, hmore, rfl⟩
      exact ⟨(rows, more), joined_eq_ok_iff.mpr ⟨hrows, hmore⟩, rfl⟩
  · intro e he
    cases hjoined : joined order company contact with
    | error f => exact ⟨f, map_eq_error_iff.mpr hjoined, joined_eq_error hjoined⟩
    | ok rows =>
      obtain ⟨hcompany, hcontact⟩ := joined_eq_ok_iff.mp hjoined
      rcases he with he | he
      · exact nomatch he.symm.trans hcompany
      · exact nomatch he.symm.trans hcontact

/-! ## Previews -/

/-- A preview of at most `n` rows on each side comes of two statements that are run on a warehouse. Both
texts ask for as many rows. The query for each side ends in its own way, and what comes of them is all or
nothing: in the order in which they are over, as it would be in any other. -/
structure Previewed (w : Warehouse) (ctx : Context) (n : Nat) (company contact : Statement)
    (left right : Except Error (List Row)) (preview : Except Error Preview) : Prop where
  limited : LimitedTo n company ∧ LimitedTo n contact
  company : Ends w ctx .companyPreview company.toSent left
  contact : Ends w ctx .contactPreview contact.toSent right
  whole : AllOrNothing n left right preview
  ordered : ∃ order, preview = previewIn order n left right
  anyOrder : ∀ order, AllOrNothing n left right (previewIn order n left right)

namespace Audience

variable (a : Audience) (w : Warehouse) (ctx : Context) (o : CompileOptions) (fs : FilterSet)
  (requested : Option Nat)

theorem outcome_runPreview {p : PreviewStatements}
    (h : a.bothPreviews fs requested (o.withDialect w.dialect) = .ok p) :
    (a.runPreview w ctx o fs requested).outcome =
      previewIn ((w.runStatement ctx .companyPreview p.company).order
          (w.runStatement ctx .contactPreview p.contact)) p.limit
        (w.runStatement ctx .companyPreview p.company).outcome
        (w.runStatement ctx .contactPreview p.contact).outcome := by
  rw [runPreview, h, previewIn, ← Run.outcome_beside]
  rfl

/-- **A preview is all or nothing**, capped, and the same in whatever order its queries are over: it fails as
it is compiled, or it comes of the two statements that are compiled for the dialect of the warehouse. -/
theorem runPreview_previewed :
    (∃ e, a.companyStatement fs requested (o.withDialect w.dialect) = .error e ∧
        a.contactStatement fs requested (o.withDialect w.dialect) = .error e ∧
        (a.runPreview w ctx o fs requested).outcome = .error e) ∨
      ∃ company contact,
        a.companyStatement fs requested (o.withDialect w.dialect) = .ok company ∧
        a.contactStatement fs requested (o.withDialect w.dialect) = .ok contact ∧
        Previewed w ctx
          (min (requested.getD o.compiler.previewLimit.toNat) o.compiler.previewLimit.toNat)
          company contact (w.run ctx .companyPreview company.sql company.params).outcome
          (w.run ctx .contactPreview contact.sql contact.params).outcome
          (a.runPreview w ctx o fs requested).outcome := by
  unfold companyStatement contactStatement
  rw [← CompilerSettings.previewRows_eq]
  cases h : a.bothPreviews fs requested (o.withDialect w.dialect) with
  | error e =>
    refine Or.inl ⟨e, rfl, rfl, ?_⟩
    rw [runPreview, h]
    rfl
  | ok p =>
    refine Or.inr ⟨_, _, rfl, rfl, ?_⟩
    have houtcome := a.outcome_runPreview w ctx o fs requested h
    rw [bothPreviews_of_stage] at h
    obtain ⟨st, _, rfl⟩ := map_eq_ok_iff.mp h
    refine ⟨⟨?_, ?_⟩, w.ends_run _ _ _, w.ends_run _ _ _, ?_, ⟨_, houtcome⟩,
      fun order => allOrNothing_previewIn order _ _ _⟩
    · exact st.limitedTo_preview st.parts.parent [] _ _
    · exact st.limitedTo_preview st.parts.child _ _ _
    · rw [houtcome]
      exact allOrNothing_previewIn _ _ _ _

end Audience

end Targeting
