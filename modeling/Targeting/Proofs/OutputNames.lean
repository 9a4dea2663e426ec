import Targeting.Proofs.Sources
import Targeting.Row

/-!
# Names of listed columns

A listing returns each column under the alias of its object, an underscore and the name of its field.
Aliases and names of fields may have underscores themselves, so the place of the one in between is not
known: two columns may come under one name, where the alias of one runs on into the name of the other's
field. Then a row as an object loses a value. A row is read by names without regard to case, so there
columns are kept apart only if their names differ in more than case.

* `append_cons_eq_iff`, `underscored_eq_iff`: when two texts with a separator in between are the same;
* `outputName`, `Overlaps`: the name of a column, and how two of them may be the same;
  **`nodup_outputNames_iff`**;
* `Row.member?_eq`, `Row.value?_eq`: what is found in a row; `KeepsValues`, **`keepsValues_toJson_iff`**,
  **`keepsValues_value?_iff`**: when nothing is lost;
* **`Audience.listing_names`**: the names of a listing.
-/

namespace Targeting

/-! ## Separators -/

/-- **Two texts with a separator in between are the same** if their parts are, or if the separator of one
stands further on in the other. -/
theorem append_cons_eq_iff {α : Type} {c : α} {xs ys zs ws : List α} :
    xs ++ c :: ys = zs ++ c :: ws ↔ (xs = zs ∧ ys = ws) ∨
      (∃ word, zs = xs ++ c :: word ∧ ys = word ++ c :: ws) ∨
      ∃ word, xs = zs ++ c :: word ∧ ws = word ++ c :: ys := by
  constructor
  · intro h
    rcases List.append_eq_append_iff.mp h with ⟨rest, rfl, hrest⟩ | ⟨rest, rfl, hrest⟩
    · cases rest with
      | nil => exact Or.inl ⟨(List.append_nil _).symm, (List.cons.inj hrest).2⟩
      | cons _ word =>
        obtain ⟨rfl, rfl⟩ := List.cons.inj hrest
        exact Or.inr (Or.inl ⟨word, rfl, rfl⟩)
    · cases rest with
      | nil => exact Or.inl ⟨List.append_nil _, (List.cons.inj hrest).2.symm⟩
      | cons _ word =>
        obtain ⟨rfl, rfl⟩ := List.cons.inj hrest
        exact Or.inr (Or.inr ⟨word, rfl, rfl⟩)
  · rintro (⟨rfl, rfl⟩ | ⟨word, rfl, rfl⟩ | ⟨word, rfl, rfl⟩)
    · rfl
    · rw [List.append_assoc, List.cons_append]
    · rw [List.append_assoc, List.cons_append]

theorem underscored_eq_iff {a f b g : String} : a ++ "_" ++ f = b ++ "_" ++ g ↔ (a = b ∧ f = g) ∨
    (∃ word, b = a ++ "_" ++ word ∧ f = word ++ "_" ++ g) ∨
    ∃ word, a = b ++ "_" ++ word ∧ g = word ++ "_" ++ f := by
  have hchars : ∀ s t : String, (s ++ "_" ++ t).toList = s.toList ++ '_' :: t.toList := fun s t => by
    simp
  have hword : ∀ s t u v : String, (∃ word : List Char, t.toList = s.toList ++ '_' :: word ∧
      u.toList = word ++ '_' :: v.toList) ↔ ∃ word, t = s ++ "_" ++ word ∧ u = word ++ "_" ++ v := by
    intro s t u v
    constructor
    · rintro ⟨word, ht, hu⟩
      refine ⟨String.ofList word, String.toList_inj.mp ?_, String.toList_inj.mp ?_⟩
      · rw [hchars, String.toList_ofList, ht]
      · rw [hchars, String.toList_ofList, hu]
    · rintro ⟨word, rfl, rfl⟩
      exact ⟨word.toList, hchars _ _, hchars _ _⟩
  rw [← String.toList_inj, hchars, hchars, append_cons_eq_iff, String.toList_inj, String.toList_inj,
    hword, hword]

/-! ## Names -/

/-- The name under which a listing returns a column. -/
def outputName (q : Placement × Field) : String := q.1.label ++ "_" ++ q.2.name

/-- The alias of one column runs on into the name of the field of another: it is that of the other one with
an underscore and a word behind it, and this word stands in front of the name of its own field there. -/
def Overlaps (fold : String → String) (q r : Placement × Field) : Prop :=
  ∃ word, fold r.1.label = fold q.1.label ++ "_" ++ word ∧
    fold q.2.name = word ++ "_" ++ fold r.2.name

theorem not_overlaps_self (fold : String → String) (q : Placement × Field) : ¬ Overlaps fold q q := by
  rintro ⟨word, hlabel, _⟩
  have hlength := congrArg String.length hlabel
  rw [String.length_append, String.length_append] at hlength
  have hunderscore : "_".length = 1 := rfl
  omega

theorem fold_outputName_eq_iff {fold : String → String}
    (hfold : ∀ s t, fold (s ++ "_" ++ t) = fold s ++ "_" ++ fold t) (q r : Placement × Field) :
    fold (outputName q) = fold (outputName r) ↔
      (fold q.1.label, fold q.2.name) = (fold r.1.label, fold r.2.name) ∨ Overlaps fold q r ∨
        Overlaps fold r q := by
  rw [outputName, outputName, hfold, hfold, underscored_eq_iff, Prod.mk.injEq]
  rfl

/-- **The names of columns are different**, perhaps up to case, exactly if no two columns have both an alias
and a field of the same name and none overlaps another. -/
theorem nodup_outputNames_iff (fold : String → String)
    (hfold : ∀ s t, fold (s ++ "_" ++ t) = fold s ++ "_" ++ fold t) (qs : List (Placement × Field)) :
    ((qs.map outputName).map fold).Nodup ↔
      (qs.map fun q => (fold q.1.label, fold q.2.name)).Nodup ∧
        ∀ q ∈ qs, ∀ r ∈ qs, ¬ Overlaps fold q r := by
  have hsymm : Std.Symm fun q r => ¬ Overlaps fold q r ∧ ¬ Overlaps fold r q := ⟨fun _ _ => And.symm⟩
  have happart : (∀ q ∈ qs, ∀ r ∈ qs, ¬ Overlaps fold q r) ↔
      qs.Pairwise fun q r => ¬ Overlaps fold q r ∧ ¬ Overlaps fold r q := by
    constructor
    · exact fun h => List.pairwise_of_forall_mem_list fun q hq r hr => ⟨h q hq r hr, h r hr q hq⟩
    · intro h q hq r hr
      exact (h.forall_of_forall (fun q _ => ⟨not_overlaps_self fold q, not_overlaps_self fold q⟩) hq hr).1
  rw [happart, List.map_map, List.Nodup, List.Nodup, List.pairwise_map, List.pairwise_map,
    ← List.pairwise_and_iff]
  have hpair : ∀ q r, fold (outputName q) ≠ fold (outputName r) ↔
      (fold q.1.label, fold q.2.name) ≠ (fold r.1.label, fold r.2.name) ∧
        ¬ Overlaps fold q r ∧ ¬ Overlaps fold r q := fun q r => by
    rw [Ne, fold_outputName_eq_iff hfold, not_or, not_or]
  exact List.Pairwise.iff hpair

/-! ## Rows -/

/-- What is found in a row as an object. -/
def Row.member? (r : Row) (name : String) : Option Json := r.toJson.get? name

/-- In a row as an object the last column of a name is found. -/
theorem Row.member?_eq (r : Row) (name : String) : r.member? name =
    (r.cells.reverse.find? fun c => c.1 = name).map fun c => c.2.toJson := by
  rw [member?, toJson, Json.sorted, Json.get?, Keyed.lookup_ofList, ← List.map_reverse]
  induction r.cells.reverse with
  | nil => rfl
  | cons c rest ih =>
    rw [List.map_cons, Keyed.lookup_cons_eq, ih]
    by_cases hc : c.1 = name
    · rw [List.find?_cons_of_pos (by exact decide_eq_true hc), if_pos hc.symm]
      rfl
    · rw [List.find?_cons_of_neg (by simpa using hc), if_neg (Ne.symm hc)]

/-- By a name the first column is found that has the name up to case. -/
theorem Row.value?_eq (r : Row) (name : String) : r.value? name =
    (r.cells.find? fun c => Text.lowerAscii c.1 = Text.lowerAscii name).map Prod.snd := by
  rw [value?]
  congr 2
  funext c
  exact Bool.eq_iff_iff.mpr (Text.sameLetters_iff.trans decide_eq_true_iff.symm)

/-- Nothing is lost of rows with certain columns, whatever their values are: under the name of each column
its own value is found. -/
def KeepsValues {α : Type} (columns : List String) (find : Row → String → Option α) (shown : Value → α) :
    Prop :=
  ∀ row : Row, row.columns = columns → ∀ c ∈ row.cells, find row c.1 = some (shown c.2)

theorem find?_of_nodup {fold : String → String} {cells : List (String × Value)}
    (h : ((cells.map Prod.fst).map fold).Nodup) {c : String × Value} (hc : c ∈ cells) :
    (cells.find? fun d => fold d.1 = fold c.1) = some c := by
  induction cells with
  | nil => cases hc
  | cons d rest ih =>
    rw [List.map_cons, List.map_cons, List.nodup_cons] at h
    rcases List.mem_cons.mp hc with rfl | hc
    · exact List.find?_cons_of_pos (by exact decide_eq_true rfl)
    · have hne : fold d.1 ≠ fold c.1 := fun he =>
        h.1 (he ▸ List.mem_map_of_mem (List.mem_map_of_mem hc))
      rw [List.find?_cons_of_neg (by simpa using hne)]
      exact ih h.2 hc

/-- **Each value is found** as the first one under the name of its column exactly if the names are
different. -/
theorem find?_eq_iff_nodup {α : Type} (fold : String → String) (columns : List String) {shown : Value → α}
    {v w : Value} (hvw : shown v ≠ shown w) :
    (∀ cells : List (String × Value), cells.map Prod.fst = columns → ∀ c ∈ cells,
      ((cells.find? fun d => fold d.1 = fold c.1).map fun d => shown d.2) = some (shown c.2)) ↔
      (columns.map fold).Nodup := by
  constructor
  · intro h
    induction columns with
    | nil => exact List.nodup_nil
    | cons k ks ih =>
      have hk : fold k ∉ ks.map fold := by
        -- The first column would be found in place of another one of its name.
        intro hmem
        obtain ⟨k', hk', he⟩ := List.mem_map.mp hmem
        have hfound := h ((k, v) :: ks.map (·, w)) (by simp [Function.comp_def]) (k', w)
          (List.mem_cons_of_mem _ (List.mem_map_of_mem hk'))
        rw [List.find?_cons_of_pos (by exact decide_eq_true he.symm)] at hfound
        exact hvw (Option.some.inj hfound)
      refine List.nodup_cons.mpr ⟨hk, ih fun cells hcells c hc => ?_⟩
      have hfound := h ((k, v) :: cells) (by rw [List.map_cons, hcells]) c (List.mem_cons_of_mem _ hc)
      have hne : fold k ≠ fold c.1 := fun he =>
        hk (he ▸ List.mem_map_of_mem (hcells ▸ List.mem_map_of_mem hc))
      rwa [List.find?_cons_of_neg (by simpa using hne)] at hfound
  · rintro h cells rfl c hc
    rw [find?_of_nodup h hc]
    rfl

/-- **A row as an object loses nothing** exactly if its columns have different names. -/
theorem keepsValues_toJson_iff {columns : List String} :
    KeepsValues columns Row.member? Value.toJson ↔ columns.Nodup := by
  have hvw : Value.null.toJson ≠ (Value.bool true).toJson := nofun
  have hfound := find?_eq_iff_nodup id columns.reverse hvw
  rw [List.map_id, List.nodup_reverse] at hfound
  rw [← hfound]
  -- The last column counts, so this is about the columns from the right.
  constructor
  · intro h cells hcells c hc
    have hrow := h ⟨cells.reverse⟩ (by rw [Row.columns, List.map_reverse, hcells, List.reverse_reverse]) c
      (List.mem_reverse.mpr hc)
    rwa [Row.member?_eq, List.reverse_reverse] at hrow
  · intro h row hrow c hc
    rw [Row.member?_eq]
    exact h row.cells.reverse (by rw [List.map_reverse, ← hrow, Row.columns]) c (List.mem_reverse.mpr hc)

/-- **Reading a row by names finds everything** exactly if its columns have names that differ in more than
case. -/
theorem keepsValues_value?_iff {columns : List String} :
    KeepsValues columns Row.value? id ↔ (columns.map Text.lowerAscii).Nodup := by
  have hvw : id Value.null ≠ id (Value.bool true) := nofun
  rw [← find?_eq_iff_nodup _ columns hvw]
  constructor
  · intro h cells hcells c hc
    rw [← h ⟨cells⟩ hcells c hc, Row.value?_eq]
    rfl
  · intro h row hrow c hc
    rw [← h row.cells hrow c hc, Row.value?_eq]
    rfl

/-! ## Listings -/

theorem selected_eq {q : Placement × Field} (h : isIdentifier q.2.name = true) :
    selected q = q.1.column q.2 ++ " AS " ++ outputName q := by
  rw [selected, sanitize_eq_self (isIdentifierChars_chars h), outputName]
  simp only [String.append_assoc]

theorem mem_selection {ps : List Placement} {q : Placement × Field} :
    q ∈ selection ps ↔ q.1 ∈ ps ∧ q.2 ∈ q.1.object.displayable := by
  simp only [selection, List.mem_flatMap, List.mem_map]
  constructor
  · rintro ⟨p, hp, f, hf, rfl⟩
    exact ⟨hp, hf⟩
  · rintro ⟨hp, hf⟩
    exact ⟨q.1, hp, q.2, hf, rfl⟩

/-- No two listed columns have both an alias and a field of the same name. -/
theorem nodup_selection {ps : List Placement} (hlabels : (ps.map Placement.label).Nodup)
    (hfields : ∀ p ∈ ps, (p.object.fields.map Field.name).Nodup) :
    ((selection ps).map fun q => (q.1.label, q.2.name)).Nodup := by
  rw [selection, List.map_flatMap, List.nodup_flatMap]
  constructor
  · intro p hp
    have hnames : (p.object.displayable.map Field.name).Nodup :=
      (hfields p hp).sublist (List.filter_sublist.map Field.name)
    rw [List.map_map]
    exact List.Nodup.of_map Prod.snd (by rwa [List.map_map])
  · refine (List.pairwise_map.mp hlabels).imp fun hne => ?_
    intro pair hp hq
    simp only [List.map_map, List.mem_map] at hp hq
    obtain ⟨_, _, rfl⟩ := hp
    obtain ⟨_, _, heq⟩ := hq
    exact hne (Prod.mk.inj heq).1.symm

/-- What the names of listed columns keep apart. -/
structure NamesColumns (columns : List (Placement × Field)) : Prop where
  /-- The names are different unless columns overlap. -/
  nodup_iff : (columns.map outputName).Nodup ↔ ∀ q ∈ columns, ∀ r ∈ columns, ¬ Overlaps id q r
  /-- They differ in more than case unless aliases and fields do not, or columns overlap up to case. -/
  caseless_iff : ((columns.map outputName).map Text.lowerAscii).Nodup ↔
    (columns.map fun q => (Text.lowerAscii q.1.label, Text.lowerAscii q.2.name)).Nodup ∧
      ∀ q ∈ columns, ∀ r ∈ columns, ¬ Overlaps Text.lowerAscii q r
  /-- Rows as objects lose nothing if the names are different, and only then. -/
  object_iff : KeepsValues (columns.map outputName) Row.member? Value.toJson ↔
    (columns.map outputName).Nodup
  /-- Reading by names finds everything if the names differ in more than case, and only then. -/
  read_iff : KeepsValues (columns.map outputName) Row.value? id ↔
    ((columns.map outputName).map Text.lowerAscii).Nodup

theorem namesColumns {columns : List (Placement × Field)}
    (h : (columns.map fun q => (q.1.label, q.2.name)).Nodup) : NamesColumns columns := by
  have hlower : ∀ s t, Text.lowerAscii (s ++ "_" ++ t) =
      Text.lowerAscii s ++ "_" ++ Text.lowerAscii t := fun s t => by
    rw [Text.lowerAscii_append, Text.lowerAscii_append]
    rfl
  refine ⟨?_, nodup_outputNames_iff _ hlower columns, keepsValues_toJson_iff, keepsValues_value?_iff⟩
  have hnames := nodup_outputNames_iff id (fun _ _ => rfl) columns
  rw [List.map_id] at hnames
  exact hnames.trans (and_iff_right h)

namespace Audience

variable {a : Audience} {o : CompileOptions} {fs : FilterSet} {limit : Option Nat}

/-- A listing shows the columns of a plan, each under its name. -/
def ListsColumns (a : Audience) (o : CompileOptions) (limit : Option Nat) (s : Statement)
    (plan : JoinPlan) : Prop :=
  JoinPlan.build a o.compiler.joinStrategy = .ok plan ∧ ∃ condition : Condition,
    s.sql = "SELECT DISTINCT " ++
      selectList "*" ((selection plan.objects).map fun q => q.1.column q.2 ++ " AS " ++ outputName q) ++
      " " ++ plan.clause ++
      condition.whereClause.textWith (Sql.mark o.dialect o.compiler.valueMode) 1 ++
      limit.elim "" fun n => " LIMIT " ++ toString n

/-- **What the names in a listing keep apart**, whenever it compiles for objects each of which has different
identifiers for its fields. -/
theorem listing_names (hnames : ∀ p ∈ a.objects, ∀ f ∈ p.object.fields, isIdentifier f.name = true)
    (hfields : ∀ p ∈ a.objects, (p.object.fields.map Field.name).Nodup) {s : Statement}
    (h : a.listingStatement fs limit o = .ok s) :
    ∃ plan, a.ListsColumns o limit s plan ∧ NamesColumns (selection plan.objects) := by
  obtain ⟨plan, company, contact, _, _, hvalid, hplan, _, _, hsql⟩ := listingStatement_eq_ok h
  have hmem : ∀ p ∈ plan.objects, p ∈ a.objects := (JoinPlan.drawnFrom_build hplan).objects
  refine ⟨plan, ⟨hplan, Condition.conjunction (company ++ contact), ?_⟩, namesColumns ?_⟩
  · have hitems : plan.objects.flatMap Placement.listingItems =
        (selection plan.objects).map fun q => q.1.column q.2 ++ " AS " ++ outputName q := by
      rw [flatMap_listingItems]
      refine List.map_congr_left fun q hq => selected_eq ?_
      obtain ⟨hp, hf⟩ := mem_selection.mp hq
      exact hnames q.1 (hmem q.1 hp) q.2 (List.mem_of_mem_filter hf)
    rw [← hitems]
    exact hsql
  · exact nodup_selection (JoinPlan.nodup_labels hvalid hplan) fun p hp => hfields p (hmem p hp)

/-- The names in the listing of the sample. -/
theorem sample_listing_names :
    (∀ p ∈ Sample.audience.objects, ∀ f ∈ p.object.fields, isIdentifier f.name = true) ∧
      (∀ p ∈ Sample.audience.objects, (p.object.fields.map Field.name).Nodup) ∧
      ∃ s plan, Sample.audience.listingStatement Sample.directors (some 10) {} = .ok s ∧
        Sample.audience.ListsColumns {} (some 10) s plan ∧ NamesColumns (selection plan.objects) := by
  have hnames : ∀ p ∈ Sample.audience.objects, ∀ f ∈ p.object.fields, isIdentifier f.name = true := by
    decide
  have hfields : ∀ p ∈ Sample.audience.objects, (p.object.fields.map Field.name).Nodup := by decide
  have hlisting : ∃ s, Sample.audience.listingStatement Sample.directors (some 10) {} = .ok s := ⟨_, rfl⟩
  obtain ⟨s, hs⟩ := hlisting
  obtain ⟨plan, hcolumns⟩ := listing_names hnames hfields hs
  exact ⟨hnames, hfields, s, plan, hs, hcolumns⟩

/-- Two objects of which one has an alias that runs on into the name of a field of the other. -/
def overlapping : Audience where
  objects :=
    [{ object := { table := "accounts", fields := [{ name := "b_c" }] }, label := "a", role := some .parent },
      { object := { table := "people", fields := [{ name := "c" }] }, label := "a_b", role := some .child }]
  relationships := [{ first := some "a", second := some "a_b", condition := "a.id = a_b.id" }]

/-- **Two columns of a listing may come under one name**, and then rows lose a value both as objects and when
they are read by names. -/
theorem overlapping_names_not_nodup :
    (∀ p ∈ overlapping.objects, ∀ f ∈ p.object.fields, isIdentifier f.name = true) ∧
      (∀ p ∈ overlapping.objects, (p.object.fields.map Field.name).Nodup) ∧
      (∃ s, overlapping.listingStatement {} none {} = .ok s ∧
        s.sql = "SELECT DISTINCT a.b_c AS a_b_c, a_b.c AS a_b_c FROM accounts a" ++
          " INNER JOIN people a_b ON a.id = a_b.id") ∧
      ¬ ((selection overlapping.objects).map outputName).Nodup ∧
      ¬ KeepsValues ((selection overlapping.objects).map outputName) Row.member? Value.toJson ∧
      ¬ KeepsValues ((selection overlapping.objects).map outputName) Row.value? id := by
  refine ⟨by decide, by decide, ⟨_, rfl, by decide +kernel⟩, by decide, fun h => ?_, fun h => ?_⟩
  · exact absurd (keepsValues_toJson_iff.mp h) (by decide)
  · exact absurd (keepsValues_value?_iff.mp h) (by decide)

end Audience

end Targeting
