import Targeting.Proofs.Alphabet

/-!
# What makes an audience valid

An audience is valid if its names are usable in SQL as they stand, its aliases are all different, and its
relationships name only aliases that it has. The check goes through the objects once and stops at the first
problem; it finds none exactly if there is none. Nothing is compiled for an audience that is not valid: a
listing, counts, previews and distinct values all fail with the problem that the check reports.

* `IsName`, **`isIdentifier_iff`**; `IsQualifiedName`, **`isQualified_iff`**: what names are;
* `Placement.problem?_eq_none_iff`, `Audience.objectProblem?_eq_none_iff`: what one object has to be like, and
  objects in order;
* `Audience.Valid`, **`Audience.validate_eq_ok_iff`**: what a valid audience is;
* `Audience.FailsWith`: everything that is compiled for an audience fails with an error;
* **`Audience.validate_exact`**.
-/

namespace Targeting

/-! ## Names -/

/-- An ASCII letter or an underscore. -/
def IsNameStart (c : Char) : Prop := ('A' ≤ c ∧ c ≤ 'Z') ∨ ('a' ≤ c ∧ c ≤ 'z') ∨ c = '_'

/-- An ASCII letter, an underscore or an ASCII digit. -/
def IsNameRest (c : Char) : Prop := IsNameStart c ∨ ('0' ≤ c ∧ c ≤ '9')

/-- A single name: a letter or an underscore, and then letters, digits and underscores. -/
def IsName (s : String) : Prop :=
  ∃ c cs, s.toList = c :: cs ∧ IsNameStart c ∧ ∀ d ∈ cs, IsNameRest d

/-- One or more names with dots in between. -/
def IsQualifiedName (s : String) : Prop :=
  ∃ names : List String, names ≠ [] ∧ (∀ name ∈ names, IsName name) ∧ s = String.intercalate "." names

theorem isUpper_iff {c : Char} : c.isUpper = true ↔ 'A' ≤ c ∧ c ≤ 'Z' :=
  decide_eq_true_iff

theorem isLower_iff {c : Char} : c.isLower = true ↔ 'a' ≤ c ∧ c ≤ 'z' :=
  Bool.and_eq_true_iff.trans (and_congr decide_eq_true_iff decide_eq_true_iff)

theorem isAlpha_iff {c : Char} : c.isAlpha = true ↔ ('A' ≤ c ∧ c ≤ 'Z') ∨ ('a' ≤ c ∧ c ≤ 'z') :=
  Bool.or_eq_true_iff.trans (or_congr isUpper_iff isLower_iff)

theorem isNameStart_eq_true_iff {c : Char} : isNameStart c = true ↔ IsNameStart c := by
  simp only [isNameStart, IsNameStart, Bool.or_eq_true, isAlpha_iff, decide_eq_true_eq, or_assoc]

theorem isNameChar_eq_true_iff {c : Char} : isNameChar c = true ↔ IsNameRest c := by
  rw [IsNameRest, ← isNameStart_eq_true_iff]
  simp [isNameChar, isNameStart, Char.isAlphanum, Char.isDigit, Char.le_def, or_right_comm]

/-- **Identifiers are names.** -/
theorem isIdentifier_iff {s : String} : isIdentifier s = true ↔ IsName s := by
  rw [isIdentifier, IsName]
  cases s.toList with
  | nil => simp [isIdentifierChars]
  | cons c cs => simp [isIdentifierChars, isNameStart_eq_true_iff, isNameChar_eq_true_iff]

/-- A text is its parts with dots in between. -/
theorem intercalate_dotParts (cs : List Char) : ['.'].intercalate (dotParts cs) = cs := by
  induction cs with
  | nil => rfl
  | cons c cs ih =>
    obtain ⟨part, parts, hparts⟩ := List.exists_cons_of_ne_nil (dotParts_ne_nil cs)
    rw [hparts] at ih
    rw [dotParts, hparts]
    by_cases hdot : c = '.'
    · simp only [if_pos hdot]
      rw [List.intercalate_cons_cons, ih, hdot]
      rfl
    · simp only [if_neg hdot]
      rw [← ih]
      cases parts with
      | nil => simp
      | cons next rest => simp

/-- Parts without dots are found again. -/
theorem dotParts_intercalate {names : List (List Char)} (hne : names ≠ [])
    (hnames : ∀ name ∈ names, isIdentifierChars name = true) :
    dotParts (['.'].intercalate names) = names := by
  induction names with
  | nil => exact absurd rfl hne
  | cons name rest ih =>
    obtain ⟨hname, hrest⟩ := List.forall_mem_cons.mp hnames
    have hdots := isIdentifierChars_no_dot hname
    cases rest with
    | nil => rw [List.intercalate_singleton, dotParts_of_no_dot hdots]
    | cons next rest =>
      rw [List.intercalate_cons_cons, List.append_assoc, List.singleton_append, dotParts_append_dot hdots,
        ih (List.cons_ne_nil _ _) hrest]

/-- **Qualified identifiers are names with dots in between.** -/
theorem isQualified_iff {s : String} : isQualified s = true ↔ IsQualifiedName s := by
  rw [isQualified, List.all_eq_true]
  constructor
  · intro h
    refine ⟨(dotParts s.toList).map String.ofList, ?_, ?_, ?_⟩
    · exact List.map_eq_nil_iff.not.mpr (dotParts_ne_nil s.toList)
    · rintro name hname
      obtain ⟨part, hpart, rfl⟩ := List.mem_map.mp hname
      rw [← isIdentifier_iff, isIdentifier, String.toList_ofList]
      exact h part hpart
    · rw [← String.toList_inj, String.toList_intercalate, List.map_map]
      simpa [Function.comp_def] using (intercalate_dotParts s.toList).symm
  · rintro ⟨names, hne, hnames, rfl⟩
    have hparts : ∀ part ∈ names.map String.toList, isIdentifierChars part = true := by
      intro part hpart
      obtain ⟨name, hname, rfl⟩ := List.mem_map.mp hpart
      exact isIdentifier_iff.mpr (hnames name hname)
    rw [String.toList_intercalate]
    change ∀ part ∈ dotParts (['.'].intercalate (names.map String.toList)), isIdentifierChars part = true
    rwa [dotParts_intercalate (List.map_eq_nil_iff.not.mpr hne) hparts]

/-! ## Objects -/

/-- **An object has no problem** exactly if it is vetted and its alias is new. -/
theorem Placement.problem?_eq_none_iff {seen : List String} {p : Placement} :
    p.problem? seen = none ↔ p.Vetted ∧ p.label ∉ seen := by
  refine ⟨fun h => ⟨vetted_of_problem? h, unseen_of_problem? h⟩, fun ⟨h, hseen⟩ => ?_⟩
  have hcolumns : (p.object.fields.find? fun f => !isIdentifier f.columnName) = none :=
    List.find?_eq_none.mpr fun f hf => by simp [h.columns f hf]
  simp [problem?, h.label, hseen, h.table, h.primaryKey, hcolumns]

namespace Audience

/-- **Objects in order have no problem** exactly if each is vetted, and their aliases are all different and
new. -/
theorem objectProblem?_eq_none_iff {seen : List String} {ps : List Placement} :
    objectProblem? seen ps = none ↔
      (∀ p ∈ ps, p.Vetted) ∧ (ps.map Placement.label).Nodup ∧ ∀ p ∈ ps, p.label ∉ seen := by
  refine ⟨fun h => ⟨vetted_of_objectProblem? h, nodup_labels_of_objectProblem? h⟩, ?_⟩
  induction ps generalizing seen with
  | nil => exact fun _ => rfl
  | cons p rest ih =>
    rintro ⟨hvetted, hnodup, hfresh⟩
    obtain ⟨hp, hrest⟩ := List.forall_mem_cons.mp hvetted
    obtain ⟨hlabel, hlabels⟩ := List.nodup_cons.mp hnodup
    obtain ⟨hseen, hfresh⟩ := List.forall_mem_cons.mp hfresh
    rw [objectProblem?, Placement.problem?_eq_none_iff.mpr ⟨hp, hseen⟩]
    -- The alias of this object has been seen by the ones after it.
    refine ih ⟨hrest, hlabels, fun q hq hmem => ?_⟩
    rcases List.mem_cons.mp hmem with heq | hmem
    · exact hlabel (List.mem_map.mpr ⟨q, hq, heq⟩)
    · exact hfresh q hq hmem

theorem keyProblem?_eq_none_iff {a : Audience} :
    a.keyProblem? = none ↔ ∀ key, a.joinKey = some key → IsName key := by
  unfold keyProblem?
  cases a.joinKey with
  | none => simp
  | some key => simp [isIdentifier_iff]

theorem endProblem?_eq_none_iff {a : Audience} : a.endProblem? = none ↔
    ∀ r ∈ a.relationships, ∀ label, r.first = some label ∨ r.second = some label →
      ∃ p ∈ a.objects, p.label = label := by
  rw [endProblem?, Option.map_eq_none_iff, List.find?_eq_none]
  simp only [List.mem_flatMap, Relationship.ends, List.mem_append, Option.mem_toList, List.contains_eq_mem,
    List.mem_map, Bool.not_eq_eq_eq_not, Bool.not_true, decide_eq_false_iff_not, Decidable.not_not,
    forall_exists_index, and_imp]
  exact ⟨fun h r hr label => h label r hr, fun h label r hr => h r hr label⟩

/-- What a valid audience is. -/
structure Valid (a : Audience) : Prop where
  objects : a.objects ≠ []
  aliases : ∀ p ∈ a.objects, IsName p.label
  different : (a.objects.map Placement.label).Nodup
  tables : ∀ p ∈ a.objects, IsQualifiedName p.object.table
  primaryKeys : ∀ p ∈ a.objects, IsName p.object.primaryKey
  columns : ∀ p ∈ a.objects, ∀ f ∈ p.object.fields, IsName f.columnName
  joinKey : ∀ key, a.joinKey = some key → IsName key
  ends : ∀ r ∈ a.relationships, ∀ label, r.first = some label ∨ r.second = some label →
    ∃ p ∈ a.objects, p.label = label

theorem problem?_eq_none_iff {a : Audience} : a.problem? = none ↔
    a.objects ≠ [] ∧ objectProblem? [] a.objects = none ∧ a.keyProblem? = none ∧ a.endProblem? = none := by
  rw [problem?]
  cases hobjects : a.objects with
  | nil => simp
  | cons p rest => simp [Option.orElse_eq_or, Option.or_eq_none_iff]

/-- **The check passes exactly the valid audiences.** -/
theorem validate_eq_ok_iff {a : Audience} : a.validate = .ok () ↔ a.Valid := by
  have hpasses : a.validate = .ok () ↔ a.problem? = none := by
    unfold validate
    cases a.problem? <;> simp
  rw [hpasses, problem?_eq_none_iff, objectProblem?_eq_none_iff, keyProblem?_eq_none_iff,
    endProblem?_eq_none_iff]
  constructor
  · rintro ⟨hne, ⟨hvetted, hnodup, _⟩, hkey, hends⟩
    exact
      { objects := hne
        aliases := fun p hp => isIdentifier_iff.mp (hvetted p hp).label
        different := hnodup
        tables := fun p hp => isQualified_iff.mp (hvetted p hp).table
        primaryKeys := fun p hp => isIdentifier_iff.mp (hvetted p hp).primaryKey
        columns := fun p hp f hf => isIdentifier_iff.mp ((hvetted p hp).columns f hf)
        joinKey := hkey
        ends := hends }
  · intro h
    have hvetted : ∀ p ∈ a.objects, p.Vetted := fun p hp =>
      { label := isIdentifier_iff.mpr (h.aliases p hp)
        table := isQualified_iff.mpr (h.tables p hp)
        primaryKey := isIdentifier_iff.mpr (h.primaryKeys p hp)
        columns := fun f hf => isIdentifier_iff.mpr (h.columns p hp f hf) }
    exact ⟨h.objects, ⟨hvetted, h.different, fun p _ hseen => nomatch hseen⟩, h.joinKey, h.ends⟩

/-! ## What is compiled -/

/-- Whatever is compiled for an audience fails with an error. -/
structure FailsWith (a : Audience) (e : Error) : Prop where
  listing : ∀ fs limit o, a.listingStatement fs limit o = .error e
  text : ∀ fs limit o, a.listingText fs limit o = .error e
  counts : ∀ fs o, a.countsStatement fs o = .error e
  previews : ∀ fs requested o, a.previews o fs requested = .error e
  statements : ∀ fs requested o, a.bothPreviews fs requested o = .error e
  distinct : ∀ label field limit o, a.distinctStatement label field limit o = .error e

theorem failsWith_of_validate {a : Audience} {e : Error} (h : a.validate = .error e) : a.FailsWith e := by
  have hbasis : ∀ fs o, a.basis o fs = .error e := fun fs o => by
    rw [basis, h]
    rfl
  have hstage : ∀ fs o, a.stage o fs = .error e := fun fs o => by
    rw [stage, h]
    rfl
  have hstatement : ∀ fs limit o, a.listingStatement fs limit o = .error e :=
    fun fs limit o => map_eq_error_iff.mpr (hbasis fs o.compiler)
  exact
    { listing := hstatement
      text := fun fs limit o => map_eq_error_iff.mpr (hstatement fs limit _)
      counts := fun fs o => map_eq_error_iff.mpr (hstage fs o.compiler)
      previews := fun fs requested o => bind_eq_error_iff.mpr (Or.inl (hstage fs o))
      statements := fun fs requested o => bind_eq_error_iff.mpr (Or.inl (hstage fs o.compiler))
      distinct := fun label field limit o => by
        rw [distinctStatement, Audience.distinct, h]
        rfl }

/-- **The check is exact, and nothing gets around it**: it passes exactly the valid audiences, and everything
that is compiled for any other one fails with its error. -/
theorem validate_exact (a : Audience) : (a.validate = .ok () ↔ a.Valid) ∧
    ∀ e, a.validate = .error e → a.FailsWith e :=
  ⟨validate_eq_ok_iff, fun _ => failsWith_of_validate⟩

/-- The sample with both objects under one alias. -/
def twofold : Audience :=
  { Sample.audience with objects := Sample.audience.objects.map fun p => { p with label := "c" } }

/-- Two objects may not have one alias, whatever is compiled for them. -/
theorem twofold_validate_exact : ¬ twofold.Valid ∧
    twofold.validate = .error (.configuration (.duplicateAlias "c")) ∧
      twofold.FailsWith (.configuration (.duplicateAlias "c")) := by
  obtain ⟨hvalid, hfails⟩ := validate_exact twofold
  exact ⟨fun h => (nomatch hvalid.mpr h), rfl, hfails _ rfl⟩

end Audience

end Targeting
