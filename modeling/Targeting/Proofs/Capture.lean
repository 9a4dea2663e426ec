import Targeting.Proofs.Alphabet
import Targeting.Proofs.Permissions

/-!
# Names in staged queries

Counts and previews give the qualified parents a name and then select from them beside a table under its
alias. Warehouses read these names without regard to case. A name behind `FROM` or `JOIN` stands for rows
that have been named so, and for a table only if there are none; the qualifier of a column stands for the
one source that is known by it. The name of the qualified parents is made from that of the parent, and
nothing keeps it from being the name of a table or an alias as well, nor two aliases from differing in
case only.

* `Source`, `Mention`: what a block of a query selects from, and the pieces of its text;
* `ReadAsMeant`, `StagedQuery`: every source and every qualifier stands for what it is written for;
* `Stage.countsQuery`, `Stage.previewQuery`: counts and previews with their sources;
* `Stage.Captures`: the qualified parents are named like an alias or a table;
  **`readAsMeant_beside_iff`**: a block is read as it is meant without that;
* `Stage.NamesApart`, **`Stage.namesApart_iff`**: all names are apart;
* **`Audience.staged_names`**: how counts and previews are read.
-/

namespace Targeting

/-! ## Sources -/

/-- What a block of a query selects from: a table under an alias, or rows that have been named. -/
inductive Source
  | table (name label : String)
  | rows (name : String)

namespace Source

/-- The name that is written for a source. -/
def name : Source → String
  | table name _ => name
  | rows name => name

/-- The name by which a source is known in its block. -/
def known : Source → String
  | table _ label => label
  | rows name => name

/-- The source is rows that have been named. -/
def isRows : Source → Bool
  | table _ _ => false
  | rows _ => true

/-- A source behind `FROM` or `JOIN`. -/
def text : Source → String
  | table name label => name ++ " " ++ label
  | rows name => name

end Source

/-- A piece of a block: a source, text in which all columns are qualified as those of a source, or text
without sources and qualified columns. -/
inductive Mention
  | plain (s : String)
  | source (s : Source)
  | columns (s : Source) (text : String)

namespace Mention

/-- The text of a piece. -/
def text : Mention → String
  | plain s => s
  | source s => s.text
  | columns _ text => text

/-- The source that a piece introduces. -/
def source? : Mention → Option Source
  | source s => some s
  | _ => none

/-- The source whose columns a piece qualifies. -/
def qualified? : Mention → Option Source
  | columns s _ => some s
  | _ => none

end Mention

/-- The text of a block. -/
def blockText (block : List Mention) : String := String.join (block.map Mention.text)

/-- A block is read as it is meant: a source is taken for the rows in scope exactly if it is written for
them, and a qualifier stands for the source whose columns it is written for and for no other one. -/
structure ReadAsMeant (scope : Option String) (block : List Mention) : Prop where
  sources : ∀ s ∈ block.filterMap Mention.source?,
    s.isRows = scope.any fun name => Text.sameLetters s.name name
  qualifiers : ∀ s ∈ block.filterMap Mention.qualified?,
    (block.filterMap Mention.source?).filter (fun t => Text.sameLetters t.known s.known) = [s]

/-- A query that names the rows of a block and goes on with other blocks. -/
structure StagedQuery where
  name : String
  body : List Mention
  blocks : List (List Mention)

namespace StagedQuery

/-- The text of a query with named rows. -/
def text (q : StagedQuery) : String :=
  "WITH " ++ q.name ++ " AS (" ++ blockText q.body ++ ")" ++ String.join (q.blocks.map blockText)

/-- All blocks are read as they are meant. The rows are in scope behind the block that they come from. -/
structure ReadAsMeant (q : StagedQuery) : Prop where
  body : Targeting.ReadAsMeant none q.body
  blocks : ∀ block ∈ q.blocks, Targeting.ReadAsMeant (some q.name) block

end StagedQuery

/-! ## Blocks -/

/-- A block that selects from one source and qualifies its columns. -/
theorem readAsMeant_single {scope : Option String} {block : List Mention} {s : Source}
    (hsources : block.filterMap Mention.source? = [s])
    (hqualifiers : ∀ t ∈ block.filterMap Mention.qualified?, t = s)
    (hs : s.isRows = scope.any fun name => Text.sameLetters s.name name) : ReadAsMeant scope block := by
  constructor
  · rw [hsources]
    exact List.forall_mem_singleton.mpr hs
  · intro t ht
    rw [hsources, hqualifiers t ht, List.filter_singleton, Text.sameLetters_refl]
    rfl

/-- **A block that selects from a table and from named rows** is read as it is meant exactly if neither the
table nor its alias is named like the rows. -/
theorem readAsMeant_beside_iff {block : List Mention} {table label name : String}
    (hsources : block.filterMap Mention.source? = [.table table label, .rows name])
    (hqualifiers : ∀ s ∈ block.filterMap Mention.qualified?, s = .table table label ∨ s = .rows name)
    (hrows : .rows name ∈ block.filterMap Mention.qualified?) : ReadAsMeant (some name) block ↔
      Text.sameLetters label name = false ∧ Text.sameLetters table name = false := by
  constructor
  · rintro ⟨hread, hfound⟩
    rw [hsources] at hread hfound
    have hfound := hfound (.rows name) hrows
    refine ⟨Bool.eq_false_iff.mpr fun h => ?_, (hread _ List.mem_cons_self).symm⟩
    rw [List.filter_cons_of_pos (by exact h)] at hfound
    cases (List.cons.inj hfound).1
  · rintro ⟨hlabel, htable⟩
    constructor
    · rw [hsources]
      refine List.forall_mem_cons.mpr ⟨htable.symm, List.forall_mem_singleton.mpr ?_⟩
      exact (Text.sameLetters_refl name).symm
    · intro s hs
      rw [hsources]
      rcases hqualifiers s hs with rfl | rfl
      · simp [Source.known, Text.sameLetters_refl, Text.sameLetters_comm name label, hlabel]
      · simp [Source.known, Text.sameLetters_refl, hlabel]

/-! ## Stages -/

/-- An object as a source. -/
def Placement.source (p : Placement) : Source := .table p.object.table p.label

namespace Stage

variable (st : Stage) (w : Nat → Value → String)

/-- The qualified parents as a source. -/
def parentRows : Source := .rows st.name

/-- The block that the qualified parents come from. -/
def parentBlock : List Mention :=
  let p := st.parts.parent
  [.plain "SELECT DISTINCT ", .columns p.source (p.qualify st.key), .plain " FROM ", .source p.source,
    .columns p.source (st.parentClause w)]

/-- The block that counts the qualified parents. -/
def parentCountBlock : List Mention :=
  [.plain ("(SELECT COUNT(DISTINCT " ++ st.key ++ ") FROM "), .source st.parentRows, .plain ")"]

/-- A block that selects columns of an object joined to the qualified parents, with a clause of its own. -/
def joinedBlock (p : Placement) (selected own : String) : List Mention :=
  [.plain "SELECT ", .columns p.source selected, .plain " FROM ", .source p.source, .plain " INNER JOIN ",
    .source st.parentRows, .plain " ON ", .columns p.source (p.qualify st.key), .plain " = ",
    .columns st.parentRows (st.name ++ "." ++ st.key), .columns p.source own]

/-- The counts with their sources. -/
def countsQuery : StagedQuery where
  name := st.name
  body := st.parentBlock w
  blocks :=
    let c := st.parts.child
    let counted := "COUNT(DISTINCT " ++ c.qualify c.object.primaryKey ++ ")"
    [.plain " SELECT " :: st.parentCountBlock ++ [.plain " AS company_count, "],
      .plain "(" :: st.joinedBlock c counted (st.childClause w) ++ [.plain ") AS people_count"]]

/-- A preview of an object with its sources. -/
def previewQuery (p : Placement) (own : String) (limit : Nat) : StagedQuery where
  name := st.name
  body := st.parentBlock w
  blocks :=
    [.plain " " :: st.joinedBlock p (selectList (p.qualify "*") p.previewItems) own ++
      [.plain (" LIMIT " ++ toString limit)]]

theorem text_countsQuery :
    (st.countsQuery w).text = st.countsText (st.parentClause w) (st.childClause w) := by
  -- The pieces meet at other places than the parts of the text do.
  have hhead : " AS (SELECT DISTINCT " = " AS (" ++ "SELECT DISTINCT " := rfl
  have hcount : " SELECT (SELECT COUNT(DISTINCT " = " SELECT " ++ "(SELECT COUNT(DISTINCT " := rfl
  have hbetween : ") AS company_count, (SELECT COUNT(DISTINCT " =
    ")" ++ (" AS company_count, " ++ ("(" ++ ("SELECT " ++ "COUNT(DISTINCT "))) := rfl
  have hclose : ") " = ")" ++ " " := rfl
  have hfrom : " FROM " = " " ++ "FROM " := rfl
  unfold countsText qualifiedText belonging
  simp only [StagedQuery.text, countsQuery, parentBlock, parentCountBlock, joinedBlock, blockText,
    Mention.text, Source.text, Placement.source, parentRows, List.map,
    List.cons_append, List.nil_append, String.join_cons, String.join_nil, String.append_assoc,
    String.append_empty, hhead, hcount, hbetween, hclose, hfrom, -String.reduceAppend]

theorem text_previewQuery (p : Placement) (own : String) (limit : Nat) :
    (st.previewQuery w p own limit).text = st.previewText p (st.parentClause w) own limit := by
  have hhead : " AS (SELECT DISTINCT " = " AS (" ++ "SELECT DISTINCT " := rfl
  have hselect : " SELECT " = " " ++ "SELECT " := rfl
  have hfrom : " FROM " = " " ++ "FROM " := rfl
  unfold previewText qualifiedText belonging
  simp only [StagedQuery.text, previewQuery, parentBlock, joinedBlock, blockText, Mention.text,
    Source.text, Placement.source, parentRows, List.map,
    List.cons_append, List.nil_append, String.join_cons, String.join_nil, String.append_assoc,
    String.append_empty, hhead, hselect, hfrom, -String.reduceAppend]

theorem readAsMeant_parentBlock : ReadAsMeant none (st.parentBlock w) :=
  readAsMeant_single rfl (by simp [parentBlock, Mention.qualified?]) rfl

/-- The qualified parents are named like an object: like its alias or its table, up to case. -/
def Captures (p : Placement) : Prop :=
  Text.lowerAscii p.label = st.name ∨ Text.lowerAscii p.object.table = st.name

theorem lowerAscii_name : Text.lowerAscii st.name = st.name := by
  rw [name, CatalogObject.stageName, Text.lowerAscii_append, Text.lowerAscii_lowerAscii]
  rfl

theorem sameLetters_name {s : String} :
    Text.sameLetters s st.name = true ↔ Text.lowerAscii s = st.name := by
  rw [Text.sameLetters_iff, lowerAscii_name]

theorem sameLetters_eq_false {s : String} :
    Text.sameLetters s st.name = false ↔ Text.lowerAscii s ≠ st.name := by
  rw [Bool.eq_false_iff, Ne, sameLetters_name]

theorem not_captures_iff {p : Placement} : ¬ st.Captures p ↔
    Text.sameLetters p.label st.name = false ∧ Text.sameLetters p.object.table st.name = false := by
  rw [Captures, not_or, sameLetters_eq_false, sameLetters_eq_false]

theorem readAsMeant_parentCount : ReadAsMeant (some st.name)
    (.plain " SELECT " :: st.parentCountBlock ++ [.plain " AS company_count, "]) :=
  readAsMeant_single (s := st.parentRows) rfl nofun (Text.sameLetters_refl st.name).symm

/-- **An object joined to the qualified parents** is read as it is meant unless they are named like it. -/
theorem readAsMeant_joined_iff (p : Placement) (selected own before after : String) :
    ReadAsMeant (some st.name) (.plain before :: st.joinedBlock p selected own ++ [.plain after]) ↔
      ¬ st.Captures p := by
  rw [not_captures_iff]
  refine readAsMeant_beside_iff rfl ?_ ?_
  · intro s hs
    simp only [joinedBlock, List.cons_append, List.nil_append, List.filterMap, Mention.qualified?,
      List.mem_cons, List.not_mem_nil, or_false] at hs
    rcases hs with rfl | rfl | rfl | rfl
    · exact Or.inl rfl
    · exact Or.inl rfl
    · exact Or.inr rfl
    · exact Or.inl rfl
  · simp only [joinedBlock, List.cons_append, List.nil_append, List.filterMap, Mention.qualified?]
    exact List.mem_cons_of_mem _ (List.mem_cons_of_mem _ List.mem_cons_self)

theorem readAsMeant_countsQuery_iff :
    (st.countsQuery w).ReadAsMeant ↔ ¬ st.Captures st.parts.child := by
  rw [← st.readAsMeant_joined_iff st.parts.child _ _ "(" ") AS people_count"]
  constructor
  · exact fun h => h.blocks _ (List.mem_cons_of_mem _ List.mem_cons_self)
  · intro h
    refine ⟨st.readAsMeant_parentBlock w, List.forall_mem_cons.mpr ⟨st.readAsMeant_parentCount, ?_⟩⟩
    exact List.forall_mem_singleton.mpr h

theorem readAsMeant_previewQuery_iff (p : Placement) (own : String) (limit : Nat) :
    (st.previewQuery w p own limit).ReadAsMeant ↔ ¬ st.Captures p := by
  rw [← st.readAsMeant_joined_iff p _ _ " " (" LIMIT " ++ toString limit)]
  constructor
  · exact fun h => h.blocks _ List.mem_cons_self
  · exact fun h => ⟨st.readAsMeant_parentBlock w, List.forall_mem_singleton.mpr h⟩

end Stage

/-! ## Names -/

theorem isIdentifierChars_append {cs ds : List Char} (h : isIdentifierChars cs = true)
    (hds : ∀ c ∈ ds, isNameChar c = true) : isIdentifierChars (cs ++ ds) = true := by
  cases cs with
  | nil => cases h
  | cons c cs =>
    obtain ⟨hc, hcs⟩ := Bool.and_eq_true_iff.mp h
    rw [List.cons_append, isIdentifierChars, hc, List.all_append, hcs, List.all_eq_true.mpr hds]
    rfl

namespace Stage

variable (st : Stage)

/-- The names of a stage are all apart, whatever their case: the aliases of the parent and the child and the
name of the qualified parents from each other, and that name from both tables. -/
structure NamesApart : Prop where
  labels : Text.sameLetters st.parts.parent.label st.parts.child.label = false
  parentLabel : Text.sameLetters st.parts.parent.label st.name = false
  childLabel : Text.sameLetters st.parts.child.label st.name = false
  parentTable : Text.sameLetters st.parts.parent.object.table st.name = false
  childTable : Text.sameLetters st.parts.child.object.table st.name = false

/-- **All names are apart** exactly if the aliases differ in more than case and the qualified parents are
named like neither object. -/
theorem namesApart_iff : st.NamesApart ↔
    Text.lowerAscii st.parts.parent.label ≠ Text.lowerAscii st.parts.child.label ∧
      ¬ st.Captures st.parts.parent ∧ ¬ st.Captures st.parts.child := by
  have hlabels : Text.sameLetters st.parts.parent.label st.parts.child.label = false ↔
      Text.lowerAscii st.parts.parent.label ≠ Text.lowerAscii st.parts.child.label := by
    rw [Bool.eq_false_iff, Ne, Text.sameLetters_iff]
  rw [not_captures_iff, not_captures_iff, ← hlabels]
  constructor
  · rintro ⟨hlabels, hparent, hchild, hparent', hchild'⟩
    exact ⟨hlabels, ⟨hparent, hparent'⟩, hchild, hchild'⟩
  · rintro ⟨hlabels, ⟨hparent, hparent'⟩, hchild, hchild'⟩
    exact ⟨hlabels, hparent, hchild, hparent', hchild'⟩

theorem name_eq : st.name = "qualified_" ++ Text.lowerAscii (sanitize
    (st.parts.parent.object.name?.getD (lastPart st.parts.parent.object.table))) := rfl

theorem consistsOf_isNameChar_name : ConsistsOf isNameChar st.name := by
  have hstem : ConsistsOf isNameChar "qualified_" := by decide
  exact hstem.append (consistsOf_lowerAscii (consistsOf_sanitize _))

theorem isIdentifier_name : isIdentifier st.name = true := by
  rw [isIdentifier, name_eq, String.toList_append]
  exact isIdentifierChars_append (by decide) (consistsOf_lowerAscii (consistsOf_sanitize _))

/-- A table with a dot is not named like the qualified parents. -/
theorem lowerAscii_ne_name_of_dot {table : String} (h : '.' ∈ table.toList) :
    Text.lowerAscii table ≠ st.name := by
  intro heq
  have hdot : '.' ∈ st.name.toList := by
    rw [← heq, Text.lowerAscii, String.toList_ofList]
    exact List.mem_map.mpr ⟨'.', h, rfl⟩
  exact ne_dot_of_isNameChar (st.consistsOf_isNameChar_name '.' hdot) rfl

/-- Without a name of its own a parent gives the qualified parents a longer name than its table has. -/
theorem lowerAscii_table_ne_name (hvetted : st.parts.parent.Vetted)
    (h : st.parts.parent.object.name? = none) :
    Text.lowerAscii st.parts.parent.object.table ≠ st.name := by
  by_cases hdot : '.' ∈ st.parts.parent.object.table.toList
  · exact st.lowerAscii_ne_name_of_dot hdot
  · have hchars : ∀ c ∈ st.parts.parent.object.table.toList, isNameChar c = true := fun c hc =>
      (isQualified_chars hvetted.table c hc).resolve_right fun heq => hdot (heq ▸ hc)
    have hpart : lastPart st.parts.parent.object.table = st.parts.parent.object.table := by
      rw [lastPart, dotParts_of_no_dot fun c hc => ne_dot_of_isNameChar (hchars c hc)]
      exact String.ofList_toList
    rw [name_eq, h, Option.getD_none, hpart, sanitize_eq_self hchars]
    intro heq
    have hlength := congrArg String.length heq
    rw [String.length_append] at hlength
    have hstem : "qualified_".length = 10 := rfl
    omega

/-- What the names of a stage are like. -/
structure Naming : Prop where
  /-- The aliases are different. -/
  labels : st.parts.parent.label ≠ st.parts.child.label
  /-- The qualified parents have a name in small letters. -/
  name : isIdentifier st.name = true ∧ Text.lowerAscii st.name = st.name
  /-- The names are apart unless aliases differ in case only or an object is captured. -/
  apart_iff : st.NamesApart ↔
    Text.lowerAscii st.parts.parent.label ≠ Text.lowerAscii st.parts.child.label ∧
      ¬ st.Captures st.parts.parent ∧ ¬ st.Captures st.parts.child
  /-- A table with a dot is never named like the qualified parents. -/
  dotted : ∀ table : String, '.' ∈ table.toList → Text.lowerAscii table ≠ st.name
  /-- Neither is the table of a parent without a name of its own. -/
  unnamed : st.parts.parent.object.name? = none →
    Text.lowerAscii st.parts.parent.object.table ≠ st.name
  /-- The clauses qualify columns of the parent, and of the child. -/
  clauses : (∀ l ∈ st.parentCondition.leaves, ∃ f, l.1 = st.parts.parent.column f) ∧
    ∀ l ∈ st.childCondition.leaves, ∃ f, l.1 = st.parts.child.column f

end Stage

/-! ## Statements -/

namespace Audience

theorem naming_of_stage {a : Audience} {o : CompilerSettings} {fs : FilterSet} {st : Stage}
    (h : a.stage o fs = .ok st) : st.Naming := by
  obtain ⟨company, contact, _, _, hcompany, hcontact, _⟩ := Stage.asked_of_stage h
  constructor
  case labels => exact labels_ne_of_parts (stage_eq_ok h).2.1
  case name => exact ⟨st.isIdentifier_name, st.lowerAscii_name⟩
  case apart_iff => exact st.namesApart_iff
  case dotted => exact fun table => st.lowerAscii_ne_name_of_dot
  case unnamed => exact st.lowerAscii_table_ne_name (vetted_of_stage h).parent
  case clauses =>
    rw [hcompany, hcontact]
    exact ⟨List.forall_mem_map.mpr fun q _ => ⟨q.1, rfl⟩, List.forall_mem_map.mpr fun q _ => ⟨q.1, rfl⟩⟩

variable (a : Audience) (fs : FilterSet) (limit : Option Nat) (o : CompileOptions)

/-- A statement is written as a stage names its sources. It is read as it is meant exactly if the qualified
parents are not named like the object that is joined to them. -/
def StageReads (s : Statement) (query : Stage → (Nat → Value → String) → StagedQuery)
    (joined : Parts → Placement) : Prop :=
  ∃ st, a.stage o.compiler fs = .ok st ∧ st.Naming ∧
    let q := query st (Sql.mark o.dialect o.compiler.valueMode)
    s.sql = q.text ∧ (q.ReadAsMeant ↔ ¬ st.Captures (joined st.parts))

/-- The company side of a preview with its sources. -/
def companyQuery (st : Stage) (w : Nat → Value → String) : StagedQuery :=
  st.previewQuery w st.parts.parent "" (o.compiler.previewRows limit)

/-- The contact side of a preview with its sources. -/
def contactQuery (st : Stage) (w : Nat → Value → String) : StagedQuery :=
  st.previewQuery w st.parts.child (st.childClause w) (o.compiler.previewRows limit)

/-- **How the names in counts and previews are read**, whenever they compile: each source and each qualifier
stands for what it is written for, exactly if the object that is joined to the qualified parents has neither
an alias nor a table that is written like their name. -/
theorem staged_names :
    (∀ s, a.countsStatement fs o = .ok s → a.StageReads fs o s Stage.countsQuery Parts.child) ∧
      (∀ s, a.companyStatement fs limit o = .ok s →
        a.StageReads fs o s (companyQuery limit o) Parts.parent) ∧
      ∀ s, a.contactStatement fs limit o = .ok s →
        a.StageReads fs o s (contactQuery limit o) Parts.child := by
  refine ⟨fun s hs => ?_, fun s hs => ?_, fun s hs => ?_⟩
  · obtain ⟨st, hst, rfl⟩ := countsStatement_eq_ok_iff.mp hs
    refine ⟨st, hst, naming_of_stage hst, ?_, st.readAsMeant_countsQuery_iff _⟩
    rw [st.text_countsQuery]
    exact (Sql.write_text _ _ _).trans (st.textWith_counts _)
  · obtain ⟨st, hst, rfl⟩ := companyStatement_eq_ok_iff.mp hs
    refine ⟨st, hst, naming_of_stage hst, ?_, st.readAsMeant_previewQuery_iff _ _ _ _⟩
    rw [companyQuery, st.text_previewQuery]
    exact (Sql.write_text _ _ _).trans (st.textWith_preview _ _ [] _)
  · obtain ⟨st, hst, rfl⟩ := contactStatement_eq_ok_iff.mp hs
    refine ⟨st, hst, naming_of_stage hst, ?_, st.readAsMeant_previewQuery_iff _ _ _ _⟩
    rw [contactQuery, st.text_previewQuery]
    exact (Sql.write_text _ _ _).trans (st.textWith_preview _ _ _ _)

/-- The counts and the previews of the sample. -/
theorem sample_staged_names :
    (∃ s, Sample.audience.countsStatement Sample.directors {} = .ok s ∧
        Sample.audience.StageReads Sample.directors {} s Stage.countsQuery Parts.child) ∧
      (∃ s, Sample.audience.companyStatement Sample.directors (some 10) {} = .ok s ∧
        Sample.audience.StageReads Sample.directors {} s (companyQuery (some 10) {}) Parts.parent) ∧
      ∃ s, Sample.audience.contactStatement Sample.directors (some 10) {} = .ok s ∧
        Sample.audience.StageReads Sample.directors {} s (contactQuery (some 10) {}) Parts.child := by
  obtain ⟨hcounts, hcompany, hcontact⟩ := staged_names Sample.audience Sample.directors (some 10) {}
  exact ⟨⟨_, rfl, hcounts _ rfl⟩, ⟨_, rfl, hcompany _ rfl⟩, ⟨_, rfl, hcontact _ rfl⟩⟩

/-- Companies and contacts of a table under an alias. -/
def homonymous (label table : String) : Audience where
  objects :=
    [{ object := Sample.companies, label := "c", role := some .parent },
      { object := { Sample.contacts with table := table }, label := label, role := some .child }]
  joinKey := some "company_id"

/-- **Counts compile with names that are not apart**: aliases that differ in case only, and an alias or a
table that is named like the qualified parents. In the last case the contacts are not looked at. -/
theorem homonymous_not_apart :
    (∃ s st, (homonymous "C" "contacts").countsStatement {} {} = .ok s ∧
        (homonymous "C" "contacts").stage {} {} = .ok st ∧ ¬ st.NamesApart) ∧
      (∃ s st, (homonymous "qualified_companies" "contacts").countsStatement {} {} = .ok s ∧
        (homonymous "qualified_companies" "contacts").stage {} {} = .ok st ∧ ¬ st.NamesApart) ∧
      ∃ s st, (homonymous "p" "qualified_companies").countsStatement {} {} = .ok s ∧
        (homonymous "p" "qualified_companies").stage {} {} = .ok st ∧ ¬ st.NamesApart ∧
        s.sql = "WITH qualified_companies AS (SELECT DISTINCT c.company_id FROM companies c) SELECT" ++
          " (SELECT COUNT(DISTINCT company_id) FROM qualified_companies) AS company_count," ++
          " (SELECT COUNT(DISTINCT p.id) FROM qualified_companies p INNER JOIN qualified_companies ON" ++
          " p.company_id = qualified_companies.company_id) AS people_count" := by
  refine ⟨⟨_, _, rfl, rfl, fun h => ?_⟩, ⟨_, _, rfl, rfl, fun h => ?_⟩,
    ⟨_, _, rfl, rfl, fun h => ?_, by decide +kernel⟩⟩
  · exact absurd h.labels (by decide)
  · exact absurd h.childLabel (by decide +kernel)
  · exact absurd h.childTable (by decide +kernel)

end Audience

end Targeting
