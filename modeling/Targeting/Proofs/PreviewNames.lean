import Mathlib.Data.List.Forall2
import Targeting.Proofs.HiddenFields

/-!
# Names of previewed columns

A preview returns each column under the name of its field, with an underscore in place of every character
that no identifier has. Names of fields are not vetted where the column has a name of its own: then a name
may start with a digit or be empty, and two names may differ in nothing but such characters. A listing puts
the alias in front; a preview does not, so there the first character counts.

* `nameChar`, **`isIdentifier_sanitize_iff`**: when a name is made into an identifier;
* `LooksLike`, **`sanitize_eq_iff`**: when two names are made into the same one;
* `UsableNames`, **`usableNames_iff`**: the names of the columns of an object;
* **`Audience.preview_names`**: the names of both previews.
-/

namespace Targeting

/-! ## Characters -/

/-- What a character of a name is made into. -/
def nameChar (c : Char) : Char := if isNameChar c then c else '_'

theorem toList_sanitize (s : String) : (sanitize s).toList = s.toList.map nameChar := by
  rw [sanitize, String.toList_ofList]
  rfl

theorem isNameChar_nameChar (c : Char) : isNameChar (nameChar c) = true := by
  unfold nameChar
  split
  · assumption
  · decide

/-- An identifier may start with every character of identifiers that is no digit. -/
theorem isNameStart_iff {c : Char} : isNameStart c = true ↔ isNameChar c = true ∧ c.isDigit = false := by
  constructor
  · exact fun h => ⟨isNameChar_of_isNameStart h, isDigit_of_isNameStart h⟩
  · rintro ⟨hname, hdigit⟩
    simpa [isNameStart, isNameChar, Char.isAlphanum, hdigit] using hname

theorem isNameStart_nameChar_iff {c : Char} : isNameStart (nameChar c) = true ↔ c.isDigit = false := by
  rw [isNameStart_iff, and_iff_right (isNameChar_nameChar c)]
  unfold nameChar
  split
  · exact Iff.rfl
  · next hname =>
    -- A digit is a character of identifiers, so what is replaced is none.
    refine iff_of_true (by decide) (Bool.eq_false_iff.mpr fun hdigit => hname ?_)
    simp [isNameChar, Char.isAlphanum, hdigit]

/-- Two characters are made into the same one if they are the same, or underscores and characters that no
identifier has. -/
theorem nameChar_eq_iff {c d : Char} : nameChar c = nameChar d ↔
    c = d ∨ (c = '_' ∨ isNameChar c = false) ∧ (d = '_' ∨ isNameChar d = false) := by
  have hunderscore : isNameChar '_' = true := by decide
  unfold nameChar
  by_cases hc : isNameChar c = true <;> by_cases hd : isNameChar d = true <;> grind

/-! ## Names -/

/-- A name starts as an identifier may be made to start: with some character that is no digit. -/
def StartsAsName (s : String) : Prop := ∃ c cs, s.toList = c :: cs ∧ c.isDigit = false

/-- **A name is made into an identifier** exactly if it starts with a character that is no digit. -/
theorem isIdentifier_sanitize_iff {s : String} : isIdentifier (sanitize s) = true ↔ StartsAsName s := by
  rw [isIdentifier, toList_sanitize, StartsAsName]
  cases h : s.toList with
  | nil => simp [isIdentifierChars]
  | cons c cs =>
    have hrest : (cs.map nameChar).all isNameChar = true := by simp [isNameChar_nameChar]
    rw [List.map_cons, isIdentifierChars, hrest, Bool.and_true, isNameStart_nameChar_iff]
    simp

/-- Two names look alike: they have the same characters, but underscores and characters that no identifier
has may stand for each other. -/
def LooksLike (s t : String) : Prop :=
  List.Forall₂ (fun c d => c = d ∨ (c = '_' ∨ isNameChar c = false) ∧ (d = '_' ∨ isNameChar d = false))
    s.toList t.toList

/-- **Two names are made into the same one** exactly if they look alike. -/
theorem sanitize_eq_iff {s t : String} : sanitize s = sanitize t ↔ LooksLike s t := by
  rw [← String.toList_inj, toList_sanitize, toList_sanitize, ← List.forall₂_eq_eq_eq, LooksLike,
    List.forall₂_map_left_iff, List.forall₂_map_right_iff]
  simp only [nameChar_eq_iff]

/-! ## The columns of an object -/

/-- The names of columns can be used: they are identifiers, and fields of different names have different
ones. -/
def UsableNames (fs : List Field) : Prop :=
  (∀ f ∈ fs, isIdentifier (sanitize f.name) = true) ∧
    ∀ f ∈ fs, ∀ g ∈ fs, f.name ≠ g.name → sanitize f.name ≠ sanitize g.name

/-- **The names of columns can be used** exactly if no field has a name that is empty or starts with a digit,
and different names do not look alike. -/
theorem usableNames_iff {fs : List Field} : UsableNames fs ↔
    (∀ f ∈ fs, StartsAsName f.name) ∧ ∀ f ∈ fs, ∀ g ∈ fs, f.name ≠ g.name → ¬ LooksLike f.name g.name := by
  simp only [UsableNames, isIdentifier_sanitize_iff, Ne, sanitize_eq_iff]

/-- Fields that lie in columns of their own names have names that can be used. -/
theorem usableNames_of_columns {p : Placement} (hp : p.Vetted) {fs : List Field}
    (hfs : ∀ f ∈ fs, f ∈ p.object.fields) (hcolumn : ∀ f ∈ fs, f.column = none) : UsableNames fs := by
  have hname : ∀ f ∈ fs, isIdentifier f.name = true := fun f hf => by
    have hvetted := hp.columns f (hfs f hf)
    rwa [Field.columnName, hcolumn f hf, Option.getD_none] at hvetted
  have hsame : ∀ f ∈ fs, sanitize f.name = f.name := fun f hf =>
    sanitize_eq_self (isIdentifierChars_chars (hname f hf))
  refine ⟨fun f hf => ?_, fun f hf g hg hne => ?_⟩
  · rw [hsame f hf]
    exact hname f hf
  · rw [hsame f hf, hsame g hg]
    exact hne

/-! ## Previews -/

namespace Audience

variable (a : Audience) (fs : FilterSet) (limit : Option Nat) (o : CompileOptions)

/-- A preview returns the columns of one object under names: the name of each is that of its field, made into
characters of identifiers. All names can be used exactly if the fields that are shown have names for it, and
they have if each of them lies in the column of its own name. -/
def PreviewNames (shown : Parts → Placement) (own : Stage → (Nat → Value → String) → String)
    (s : Statement) : Prop :=
  ∃ st, a.stage o.compiler fs = .ok st ∧
    let p := shown st.parts
    let fields := p.object.displayable
    let w := Sql.mark o.dialect o.compiler.valueMode
    s.sql = st.qualifiedText (st.parentClause w) ++ " SELECT " ++
      selectList (p.qualify "*") (fields.map fun f => p.column f ++ " AS " ++ sanitize f.name) ++ " " ++
      st.belonging p ++ own st w ++ " LIMIT " ++ toString (o.compiler.previewRows limit) ∧
    (UsableNames fields ↔ (∀ f ∈ fields, StartsAsName f.name) ∧
      ∀ f ∈ fields, ∀ g ∈ fields, f.name ≠ g.name → ¬ LooksLike f.name g.name) ∧
    ((∀ f ∈ fields, f.column = none) → UsableNames fields)

/-- **The names in both previews**, whenever they compile. -/
theorem preview_names :
    (∀ s, a.companyStatement fs limit o = .ok s →
        a.PreviewNames fs limit o Parts.parent (fun _ _ => "") s) ∧
      ∀ s, a.contactStatement fs limit o = .ok s →
        a.PreviewNames fs limit o Parts.child Stage.childClause s := by
  have hfields : ∀ p : Placement, ∀ f ∈ p.object.displayable, f ∈ p.object.fields :=
    fun _ _ => List.mem_of_mem_filter
  refine ⟨fun s hs => ?_, fun s hs => ?_⟩
  · obtain ⟨st, hst, rfl⟩ := companyStatement_eq_ok_iff.mp hs
    exact ⟨st, hst, (Sql.write_text _ _ _).trans (st.textWith_preview _ _ [] _), usableNames_iff,
      usableNames_of_columns (vetted_of_stage hst).parent (hfields _)⟩
  · obtain ⟨st, hst, rfl⟩ := contactStatement_eq_ok_iff.mp hs
    exact ⟨st, hst, (Sql.write_text _ _ _).trans (st.textWith_preview _ _ _ _), usableNames_iff,
      usableNames_of_columns (vetted_of_stage hst).child (hfields _)⟩

/-- The names in the previews of the sample. -/
theorem sample_preview_names :
    (∃ s, Sample.audience.companyStatement Sample.directors (some 10) {} = .ok s ∧
        Sample.audience.PreviewNames Sample.directors (some 10) {} Parts.parent (fun _ _ => "") s) ∧
      ∃ s, Sample.audience.contactStatement Sample.directors (some 10) {} = .ok s ∧
        Sample.audience.PreviewNames Sample.directors (some 10) {} Parts.child Stage.childClause s := by
  obtain ⟨hcompany, hcontact⟩ := preview_names Sample.audience Sample.directors (some 10) {}
  exact ⟨⟨_, rfl, hcompany _ rfl⟩, ⟨_, rfl, hcontact _ rfl⟩⟩

/-- Companies with a field whose name starts with a digit, and two whose names differ in one character that
no identifier has; contacts with a field without a name. -/
def misnamed : Audience where
  objects :=
    [{ label := "c", role := some .parent, object := {
        name? := some "companies", table := "companies", primaryKey := "company_id"
        fields := [{ name := "2024 revenue", column := some "revenue_2024" },
          { name := "net revenue", column := some "net" },
          { name := "net-revenue", column := some "revenue" }] } },
      { label := "p", role := some .child, object := {
        name? := some "contacts", table := "contacts", fields := [{ name := "", column := some "title" }] } }]
  joinKey := some "company_id"

/-- **A column may come under a name that is no identifier, under none at all, and under the name of another
column.** -/
theorem misnamed_not_usable :
    (∃ s, misnamed.companyStatement {} (some 5) {} = .ok s ∧
        s.sql = "WITH qualified_companies AS (SELECT DISTINCT c.company_id FROM companies c)" ++
          " SELECT c.revenue_2024 AS 2024_revenue, c.net AS net_revenue, c.revenue AS net_revenue" ++
          " FROM companies c INNER JOIN qualified_companies ON" ++
          " c.company_id = qualified_companies.company_id LIMIT 5") ∧
      (∃ s, misnamed.contactStatement {} (some 5) {} = .ok s ∧
        s.sql = "WITH qualified_companies AS (SELECT DISTINCT c.company_id FROM companies c)" ++
          " SELECT p.title AS  FROM contacts p INNER JOIN qualified_companies ON" ++
          " p.company_id = qualified_companies.company_id LIMIT 5") ∧
      (∀ p ∈ misnamed.objects, ¬ ∀ f ∈ p.object.displayable, isIdentifier (sanitize f.name) = true) ∧
      ¬ ∀ p ∈ misnamed.objects, ∀ f ∈ p.object.displayable, ∀ g ∈ p.object.displayable,
        f.name ≠ g.name → sanitize f.name ≠ sanitize g.name := by
  exact ⟨⟨_, rfl, by decide +kernel⟩, ⟨_, rfl, by decide +kernel⟩, by decide, by decide⟩

end Audience

end Targeting
