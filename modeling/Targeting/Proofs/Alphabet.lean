import Targeting.Proofs.Statements
import Targeting.Proofs.Vetted
import Targeting.Query.Distinct
import Targeting.Sample

/-!
# The characters of statements

In bound mode a statement is written in a small alphabet: ASCII letters, digits and underscores, a few
signs of punctuation and operators, and the two signs that places are written with. Operands stand
beside the text, names are vetted, and what is not vetted is sanitized. The one part of a statement that
is taken over as it stands is the condition of a relationship in a listing.

* `isTextChar`, `isStatementChar`: the characters of the text of a query, and of a statement;
* `ConsistsOf`: a text of certain characters; `Sql.IsText`: SQL with nothing else between its operands;
* `Condition.isText_sqlAt`, `Stage.Vetted.isText_counts`, `Stage.Vetted.isText_preview`: the queries;
* `SetAside`: a text up to parts that are set aside, `Audience.setAside_listing`;
* **`Audience.statements_in_alphabet`**: all statements in bound mode.
-/

namespace Targeting

/-- The characters of the text of a query: those of names, and some punctuation and operators. -/
def isTextChar (c : Char) : Bool :=
  isNameChar c || [' ', '.', ',', '(', ')', '=', '!', '<', '>', '*'].contains c

/-- The characters of a statement in bound mode: those of its text, and those of places. -/
def isStatementChar (c : Char) : Bool := isTextChar c || ['$', '?'].contains c

/-- All characters of a text are of one kind. -/
def ConsistsOf (kind : Char → Bool) (s : String) : Prop := ∀ c ∈ s.toList, kind c = true

instance (kind : Char → Bool) (s : String) : Decidable (ConsistsOf kind s) :=
  decidable_of_iff (s.toList.all kind = true) List.all_eq_true

namespace ConsistsOf

variable {kind kind' : Char → Bool} {s t : String}

theorem append_iff : ConsistsOf kind (s ++ t) ↔ ConsistsOf kind s ∧ ConsistsOf kind t := by
  simp only [ConsistsOf, String.toList_append, List.forall_mem_append]

theorem append (h : ConsistsOf kind s) (h' : ConsistsOf kind t) : ConsistsOf kind (s ++ t) :=
  append_iff.mpr ⟨h, h'⟩

theorem mono (h : ConsistsOf kind s) (hkind : ∀ c, kind c = true → kind' c = true) :
    ConsistsOf kind' s :=
  fun c hc => hkind c (h c hc)

theorem empty : ConsistsOf kind "" := by
  intro c hc
  cases hc

theorem intercalate {ss : List String} (h : ConsistsOf kind s) (hs : ∀ t ∈ ss, ConsistsOf kind t) :
    ConsistsOf kind (String.intercalate s ss) := by
  induction ss with
  | nil => exact empty
  | cons t rest ih =>
    obtain ⟨ht, hrest⟩ := List.forall_mem_cons.mp hs
    cases rest with
    | nil =>
      rw [String.intercalate_singleton]
      exact ht
    | cons u rest =>
      rw [String.intercalate_cons_cons]
      exact (ht.append h).append (ih hrest)

end ConsistsOf

/-! ## Names and numbers -/

theorem isTextChar_of_isNameChar {c : Char} (h : isNameChar c = true) : isTextChar c = true := by
  rw [isTextChar, h, Bool.true_or]

theorem isStatementChar_of_isTextChar {c : Char} (h : isTextChar c = true) :
    isStatementChar c = true := by
  rw [isStatementChar, h, Bool.true_or]

theorem ConsistsOf.statement {s : String} (h : ConsistsOf isTextChar s) :
    ConsistsOf isStatementChar s :=
  h.mono fun _ => isStatementChar_of_isTextChar

theorem ConsistsOf.text {s : String} (h : ConsistsOf isNameChar s) : ConsistsOf isTextChar s :=
  h.mono fun _ => isTextChar_of_isNameChar

theorem isNameChar_of_isDigit {c : Char} (h : c.isDigit = true) : isNameChar c = true := by
  simp only [isNameChar, Char.isAlphanum, h, Bool.or_true, Bool.true_or]

theorem isLower_toLower {c : Char} (h : c.isUpper = true) : c.toLower.isLower = true := by
  have hbounds : 'A'.val ≤ c.val ∧ c.val ≤ 'Z'.val := of_decide_eq_true h
  have hleast : 65 ≤ c.toNat := UInt32.le_iff_toNat_le.mp hbounds.1
  have hgreatest : c.toNat ≤ 90 := UInt32.le_iff_toNat_le.mp hbounds.2
  have hlower : c.toLower = ⟨c.val + 32, _⟩ := dif_pos hbounds
  have hval : c.toLower.val = c.val + 32 := congrArg Char.val hlower
  have hsum : (c.val + 32).toNat = c.toNat + 32 := by
    rw [UInt32.toNat_add, Nat.mod_eq_of_lt]
    · rfl
    · show c.toNat + 32 < 2 ^ 32
      omega
  show (decide (c.toLower.val ≥ 'a'.val) && decide (c.toLower.val ≤ 'z'.val)) = true
  rw [hval, Bool.and_eq_true, decide_eq_true_eq, decide_eq_true_eq, ge_iff_le,
    UInt32.le_iff_toNat_le, UInt32.le_iff_toNat_le, hsum]
  constructor
  · show 97 ≤ c.toNat + 32
    omega
  · show c.toNat + 32 ≤ 122
    omega

/-- Letters stay letters when they are lowered, and other characters of names stay as they are. -/
theorem isNameChar_toLower {c : Char} (h : isNameChar c = true) : isNameChar c.toLower = true := by
  cases hupper : c.isUpper with
  | true =>
    have halpha : c.toLower.isAlpha = true := by
      show (c.toLower.isUpper || c.toLower.isLower) = true
      rw [isLower_toLower hupper, Bool.or_true]
    simp only [isNameChar, Char.isAlphanum, halpha, Bool.true_or]
  | false =>
    have hsame : c.toLower = c := dif_neg (of_decide_eq_false hupper)
    rwa [hsame]

theorem consistsOf_of_isIdentifier {s : String} (h : isIdentifier s = true) :
    ConsistsOf isTextChar s :=
  fun c hc => isTextChar_of_isNameChar (isIdentifierChars_chars h c hc)

theorem consistsOf_of_isQualified {s : String} (h : isQualified s = true) :
    ConsistsOf isTextChar s := by
  intro c hc
  rcases isQualified_chars h c hc with hname | rfl
  · exact isTextChar_of_isNameChar hname
  · decide

theorem consistsOf_toString (n : Nat) : ConsistsOf isTextChar (toString n) := by
  intro c hc
  rw [show (toString n).toList = Nat.toDigits 10 n from Nat.toList_repr] at hc
  have hdigit : c.isDigit = true := Nat.isDigit_of_mem_toDigits (by decide) (by decide) hc
  exact isTextChar_of_isNameChar (isNameChar_of_isDigit hdigit)

/-- **What is sanitized** has no characters but those of names. -/
theorem consistsOf_sanitize (s : String) : ConsistsOf isNameChar (sanitize s) := by
  intro c hc
  rw [sanitize, String.toList_ofList] at hc
  obtain ⟨d, _, rfl⟩ := List.mem_map.mp hc
  split
  · assumption
  · decide

theorem consistsOf_lowerAscii {s : String} (h : ConsistsOf isNameChar s) :
    ConsistsOf isNameChar (Text.lowerAscii s) := by
  intro c hc
  rw [Text.lowerAscii, String.toList_ofList] at hc
  obtain ⟨d, hd, rfl⟩ := List.mem_map.mp hc
  exact isNameChar_toLower (h d hd)

theorem consistsOf_stageName (o : CatalogObject) : ConsistsOf isTextChar o.stageName := by
  have hstem : ConsistsOf isNameChar "qualified_" := by decide
  exact (hstem.append (consistsOf_lowerAscii (consistsOf_sanitize _))).text

theorem Dialect.consistsOf_placeholder (d : Dialect) (i : Nat) :
    ConsistsOf isStatementChar (d.placeholder i) := by
  rw [placeholder]
  split
  · have hsign : ConsistsOf isStatementChar "$" := by decide
    exact hsign.append (consistsOf_toString i).statement
  · decide

/-! ## SQL -/

namespace Sql

/-- A piece is an operand, or text of the characters that queries are written in. -/
def Piece.IsText : Piece → Prop
  | .text s => ConsistsOf isTextChar s
  | .operand _ => True

/-- All text between the operands is written in the characters of queries. -/
def IsText (q : Sql) : Prop := ∀ piece ∈ q, piece.IsText

theorem IsText.nil : IsText [] := List.forall_mem_nil _

theorem isText_text {s : String} {q : Sql} :
    IsText (.text s :: q) ↔ ConsistsOf isTextChar s ∧ IsText q :=
  List.forall_mem_cons

theorem isText_operand {v : Value} {q : Sql} : IsText (.operand v :: q) ↔ IsText q := by
  rw [IsText, List.forall_mem_cons]
  exact and_iff_right trivial

theorem IsText.append {p q : Sql} (hp : IsText p) (hq : IsText q) : IsText (p ++ q) :=
  List.forall_mem_append.mpr ⟨hp, hq⟩

/-- **In bound mode** nothing is added to the text but places. -/
theorem IsText.consistsOf_bound {q : Sql} (h : q.IsText) (d : Dialect) (i : Nat) :
    ConsistsOf isStatementChar (q.textWith (mark d .bound) i) := by
  induction q generalizing i with
  | nil => exact .empty
  | cons piece rest ih =>
    cases piece with
    | text s =>
      obtain ⟨hs, hrest⟩ := isText_text.mp h
      exact hs.statement.append (ih hrest i)
    | operand v =>
      exact (d.consistsOf_placeholder i).append (ih (isText_operand.mp h) (i + 1))

theorem isText_operandList (vs : List Value) : IsText (operandList vs) := by
  fun_induction operandList vs with
  | case1 => exact .nil
  | case2 v => exact isText_operand.mpr .nil
  | case3 v w rest ih => exact isText_operand.mpr (isText_text.mpr ⟨by decide, ih⟩)

end Sql

open Sql

theorem Comparison.isText_sql {column : String} (hcolumn : ConsistsOf isTextChar column)
    (c : Comparison) : (c.sql column).IsText := by
  refine sql_shapes column c (fun s hs => ?_) (fun s hs => ?_) (fun s hs v => ?_) fun s hs vs _ => ?_
  · have hconstants : ∀ s ∈ ["1=0", "1=1"], ConsistsOf isTextChar s := by decide
    exact isText_text.mpr ⟨hconstants s hs, .nil⟩
  · have htests : ∀ s ∈ [" IS NULL", " IS NOT NULL"], ConsistsOf isTextChar s := by decide
    exact isText_text.mpr ⟨hcolumn.append (htests s hs), .nil⟩
  · have hoperators : ∀ s ∈ [" = ", " != ", " > ", " < ", " LIKE ", " NOT LIKE "],
        ConsistsOf isTextChar s := by decide
    exact isText_text.mpr ⟨hcolumn.append (hoperators s hs), isText_operand.mpr .nil⟩
  · have hmemberships : ∀ s ∈ [" IN (", " NOT IN ("], ConsistsOf isTextChar s := by decide
    have hclosed : IsText [.text ")"] := isText_text.mpr ⟨by decide, .nil⟩
    exact isText_text.mpr ⟨hcolumn.append (hmemberships s hs), (isText_operandList vs).append hclosed⟩

namespace Condition

theorem isText_enclosed {q : Sql} (h : q.IsText) (nested : Bool) : (enclosed nested q).IsText := by
  cases nested with
  | false => exact h
  | true =>
    rw [enclosed, if_pos rfl]
    exact isText_text.mpr ⟨by decide, h.append (isText_text.mpr ⟨by decide, .nil⟩)⟩

theorem isText_sqlAfter {keyword : String} (hk : ConsistsOf isTextChar keyword) {cs : List Condition}
    (hs : ∀ c ∈ cs, (c.sqlAt true).IsText) : (sqlAfter keyword cs).IsText := by
  induction cs with
  | nil => exact .nil
  | cons c rest ih =>
    obtain ⟨hc, hrest⟩ := List.forall_mem_cons.mp hs
    rw [sqlAfter]
    exact isText_text.mpr ⟨hk, hc.append (ih hrest)⟩

theorem isText_joined {keyword : String} (hk : ConsistsOf isTextChar keyword) {cs : List Condition}
    (hs : ∀ c ∈ cs, (c.sqlAt true).IsText) : (joined keyword cs).IsText := by
  cases cs with
  | nil => exact .nil
  | cons c rest =>
    obtain ⟨hc, hrest⟩ := List.forall_mem_cons.mp hs
    exact hc.append (isText_sqlAfter hk hrest)

theorem Named.of_mem {cs : List Condition} {c : Condition} (hc : c ∈ cs)
    (h : ∀ l ∈ cs.flatMap leaves, isQualified l.1 = true) : c.Named :=
  fun l hl => h l (List.mem_flatMap.mpr ⟨c, hc, hl⟩)

/-- **The SQL of a condition on named columns** is text with operands in between. -/
theorem isText_sqlAt {c : Condition} (h : c.Named) (nested : Bool) : (c.sqlAt nested).IsText := by
  induction c generalizing nested with
  | compare column c =>
    have hcolumn : isQualified column = true := h (column, c) (by simp)
    rw [sqlAt]
    exact c.isText_sql (consistsOf_of_isQualified hcolumn)
  | all cs ih =>
    by_cases hnil : cs = []
    · subst hnil
      exact isText_text.mpr ⟨by decide, .nil⟩
    · rw [sqlAt_all hnil]
      refine isText_enclosed (isText_joined (by decide) fun c hc => ?_) _
      exact ih c hc (.of_mem hc (by rwa [Named, leaves_all] at h)) true
  | any cs ih =>
    by_cases hnil : cs = []
    · subst hnil
      exact isText_text.mpr ⟨by decide, .nil⟩
    · rw [sqlAt_any hnil]
      refine isText_enclosed (isText_joined (by decide) fun c hc => ?_) _
      exact ih c hc (.of_mem hc (by rwa [Named, leaves_any] at h)) true

theorem isText_whereClause {c : Condition} (h : c.Named) : c.whereClause.IsText := by
  rw [whereClause]
  split
  · exact .nil
  · exact isText_text.mpr ⟨by decide, isText_sqlAt h false⟩

end Condition

/-! ## Counts and previews -/

namespace Placement.Vetted

variable {p : Placement}

theorem consistsOf_label (hp : p.Vetted) : ConsistsOf isTextChar p.label :=
  consistsOf_of_isIdentifier hp.label

theorem consistsOf_table (hp : p.Vetted) : ConsistsOf isTextChar p.object.table :=
  consistsOf_of_isQualified hp.table

theorem consistsOf_qualify (hp : p.Vetted) {column : String} (hcolumn : ConsistsOf isTextChar column) :
    ConsistsOf isTextChar (p.qualify column) := by
  have hdot : ConsistsOf isTextChar "." := by decide
  exact (hp.consistsOf_label.append hdot).append hcolumn

theorem consistsOf_column (hp : p.Vetted) {f : Field} (hf : f ∈ p.object.fields) :
    ConsistsOf isTextChar (p.column f) :=
  consistsOf_of_isQualified (hp.isQualified_column hf)

/-- The names of fields are not vetted, so a preview shows them sanitized. -/
theorem consistsOf_previewItems (hp : p.Vetted) :
    ∀ item ∈ p.previewItems, ConsistsOf isTextChar item := by
  intro item hitem
  obtain ⟨f, hf, rfl⟩ := List.mem_map.mp hitem
  have has : ConsistsOf isTextChar " AS " := by decide
  have hname := (consistsOf_sanitize f.name).text
  exact ((hp.consistsOf_column (List.mem_of_mem_filter hf)).append has).append hname

end Placement.Vetted

theorem consistsOf_selectList {wildcard : String} (hw : ConsistsOf isTextChar wildcard)
    {items : List String} (hs : ∀ item ∈ items, ConsistsOf isTextChar item) :
    ConsistsOf isTextChar (selectList wildcard items) := by
  unfold selectList
  split
  · exact hw
  · exact .intercalate (by decide) hs

namespace Stage.Vetted

variable {s : Stage}

theorem consistsOf_name (s : Stage) : ConsistsOf isTextChar s.name := consistsOf_stageName _

theorem consistsOf_key (hs : s.Vetted) : ConsistsOf isTextChar s.key :=
  consistsOf_of_isIdentifier hs.key

theorem isText_qualified (hs : s.Vetted) : s.qualified.IsText := by
  have hkey := hs.parent.consistsOf_qualify hs.consistsOf_key
  refine isText_text.mpr ⟨?_, (Condition.isText_whereClause hs.parentCondition).append ?_⟩
  · unfold qualifiedHead
    simp +decide only [ConsistsOf.append_iff, consistsOf_name, hkey, hs.parent.consistsOf_table,
      hs.parent.consistsOf_label, and_self]
  · exact isText_text.mpr ⟨by decide, .nil⟩

theorem consistsOf_belonging (hs : s.Vetted) {p : Placement} (hp : p.Vetted) :
    ConsistsOf isTextChar (s.belonging p) := by
  have hkey := hp.consistsOf_qualify hs.consistsOf_key
  unfold belonging
  simp +decide only [ConsistsOf.append_iff, consistsOf_name, hkey, hs.consistsOf_key,
    hp.consistsOf_table, hp.consistsOf_label, and_self]

theorem isText_members (hs : s.Vetted) : s.members.IsText :=
  isText_text.mpr ⟨hs.consistsOf_belonging hs.child, Condition.isText_whereClause hs.childCondition⟩

/-- **Counts of a vetted stage** are text with operands in between. -/
theorem isText_counts (hs : s.Vetted) : s.counts.sql.IsText := by
  have hprimary := hs.child.consistsOf_qualify (consistsOf_of_isIdentifier hs.child.primaryKey)
  refine hs.isText_qualified.append (isText_text.mpr ⟨?_, hs.isText_members.append ?_⟩)
  · unfold countsHead
    simp +decide only [ConsistsOf.append_iff, consistsOf_name, hprimary, hs.consistsOf_key, and_self]
  · exact isText_text.mpr ⟨by decide, .nil⟩

/-- **A preview of a vetted stage** is text with operands in between. -/
theorem isText_preview (hs : s.Vetted) {p : Placement} (hp : p.Vetted) {rows : Sql}
    (hrows : rows.IsText) (limit : Nat) : (s.preview p rows limit).sql.IsText := by
  have hitems := consistsOf_selectList (hp.consistsOf_qualify (by decide : ConsistsOf _ "*"))
    hp.consistsOf_previewItems
  refine hs.isText_qualified.append (isText_text.mpr ⟨?_, hrows.append ?_⟩)
  · unfold Placement.previewHead
    simp +decide only [ConsistsOf.append_iff, hitems, and_self]
  · refine isText_text.mpr ⟨?_, .nil⟩
    simp +decide only [ConsistsOf.append_iff, consistsOf_toString, and_self]

theorem isText_companyPreview (hs : s.Vetted) (limit : Nat) : (s.companyPreview limit).sql.IsText :=
  hs.isText_preview hs.parent (isText_text.mpr ⟨hs.consistsOf_belonging hs.parent, .nil⟩) limit

theorem isText_contactPreview (hs : s.Vetted) (limit : Nat) : (s.contactPreview limit).sql.IsText :=
  hs.isText_preview hs.child hs.isText_members limit

end Stage.Vetted

/-! ## Distinct values -/

theorem Audience.isText_distinct {a : Audience} {label field : String} {limit : Nat} {q : Query}
    (h : a.distinct label field limit = .ok q) : q.sql.IsText := by
  unfold distinct at h
  obtain ⟨⟨⟩, hvalid, h⟩ := bind_eq_ok_iff.mp h
  obtain ⟨p, hp, h⟩ := bind_eq_ok_iff.mp h
  obtain ⟨f, hf, h⟩ := bind_eq_ok_iff.mp h
  have hmem : p ∈ a.objects := by
    unfold requireObject at hp
    split at hp
    · next q hq =>
      cases hp
      exact List.mem_of_find?_eq_some hq
    · cases hp
  have hvetted : p.Vetted := vetted_of_validate hvalid p hmem
  have hcolumn := hvetted.consistsOf_column (Placement.resolve_eq_ok_iff.mp hf).mem
  cases hlists : f.listsDistinct with
  | false =>
    rw [hlists] at h
    cases h
  | true =>
    rw [hlists] at h
    cases h
    refine isText_text.mpr ⟨?_, .nil⟩
    simp +decide only [ConsistsOf.append_iff, hcolumn, hvetted.consistsOf_table,
      hvetted.consistsOf_label, consistsOf_toString, and_self]

/-! ## Listings -/

/-- A text of certain characters, but for parts in order, each of which stands right after `ON`. -/
inductive SetAside (kind : Char → Bool) : List String → String → Prop
  | rest {s : String} (h : ConsistsOf kind s) : SetAside kind [] s
  | part {s t : String} {parts : List String} (h : ConsistsOf kind s) (part : String)
    (ht : SetAside kind parts t) : SetAside kind (part :: parts) (s ++ " ON " ++ part ++ t)

namespace SetAside

variable {kind : Char → Bool} {parts : List String} {s t : String}

theorem before (h : ConsistsOf kind s) (ht : SetAside kind parts t) :
    SetAside kind parts (s ++ t) := by
  cases ht with
  | rest ht => exact .rest (h.append ht)
  | part ht part hu =>
    rw [← String.append_assoc, ← String.append_assoc, ← String.append_assoc]
    exact .part (h.append ht) part hu

end SetAside

namespace JoinPlan

theorem setAside_joins {joins : List Join} (hjoins : ∀ j ∈ joins, j.target.Vetted) {after : String}
    (hafter : ConsistsOf isStatementChar after) :
    SetAside isStatementChar (joins.map fun j => j.relationship.condition)
      (String.join (joins.map Join.clause) ++ after) := by
  induction joins with
  | nil =>
    exact .rest hafter
  | cons j rest ih =>
    obtain ⟨hj, hrest⟩ := List.forall_mem_cons.mp hjoins
    have hkeyword : ConsistsOf isTextChar j.relationship.kind.keyword := by
      cases j.relationship.kind <;> decide
    have hsource : ConsistsOf isTextChar (" " ++ j.relationship.kind.keyword ++ " " ++
        j.target.object.table ++ " " ++ j.target.label) := by
      simp +decide only [ConsistsOf.append_iff, hkeyword, hj.consistsOf_table, hj.consistsOf_label,
        and_self]
    rw [List.map_cons, List.map_cons, String.join_cons, String.append_assoc]
    exact .part hsource.statement _ (ih hrest)

theorem consistsOf_listingItems {p : Placement} (hp : p.Vetted) :
    ∀ item ∈ p.listingItems, ConsistsOf isTextChar item := by
  intro item hitem
  obtain ⟨f, hf, rfl⟩ := List.mem_map.mp hitem
  have hcolumn := hp.consistsOf_column (List.mem_of_mem_filter hf)
  have hname := (consistsOf_sanitize f.name).text
  simp +decide only [ConsistsOf.append_iff, hcolumn, hp.consistsOf_label, hname, and_self]

/-- What a listing selects, and from where, is text but for the conditions of the relationships. -/
theorem setAside_listingHead {plan : JoinPlan} (hplan : ∀ p ∈ plan.objects, p.Vetted)
    {after : String} (hafter : ConsistsOf isStatementChar after) :
    SetAside isStatementChar (plan.joins.map fun j => j.relationship.condition)
      (plan.listingHead ++ after) := by
  have hroot : plan.root.Vetted := hplan _ List.mem_cons_self
  have hjoins : ∀ j ∈ plan.joins, j.target.Vetted := fun j hj =>
    hplan _ (List.mem_cons_of_mem _ (List.mem_map.mpr ⟨j, hj, rfl⟩))
  have hitems : ConsistsOf isTextChar
      (selectList "*" (plan.objects.flatMap Placement.listingItems)) := by
    refine consistsOf_selectList (by decide) fun item hitem => ?_
    obtain ⟨p, hp, hitem⟩ := List.mem_flatMap.mp hitem
    exact consistsOf_listingItems (hplan p hp) item hitem
  have hselect : ConsistsOf isTextChar ("SELECT DISTINCT " ++
      selectList "*" (plan.objects.flatMap Placement.listingItems) ++ " ") := by
    simp +decide only [ConsistsOf.append_iff, hitems, and_self]
  have hsource : ConsistsOf isTextChar
      ("FROM " ++ plan.root.object.table ++ " " ++ plan.root.label) := by
    simp +decide only [ConsistsOf.append_iff, hroot.consistsOf_table, hroot.consistsOf_label, and_self]
  have htext : plan.listingHead ++ after = "SELECT DISTINCT " ++
      selectList "*" (plan.objects.flatMap Placement.listingItems) ++ " " ++
        ("FROM " ++ plan.root.object.table ++ " " ++ plan.root.label ++
          (String.join (plan.joins.map Join.clause) ++ after)) := by
    show "SELECT DISTINCT " ++ selectList "*" (plan.objects.flatMap Placement.listingItems) ++ " " ++
      ("FROM " ++ plan.root.object.table ++ " " ++ plan.root.label ++
        String.join (plan.joins.map Join.clause)) ++ after = _
    simp only [String.append_assoc]
  rw [htext]
  exact ((setAside_joins hjoins hafter).before hsource.statement).before hselect.statement

end JoinPlan

namespace Audience

variable {a : Audience} {o : CompilerSettings} {fs : FilterSet}

/-- **A listing** is written in the alphabet of statements, but for the conditions of relationships. -/
theorem setAside_listing {limit : Option Nat} {q : Query} (h : a.listing o fs limit = .ok q)
    (d : Dialect) : ∃ plan, JoinPlan.build a o.joinStrategy = .ok plan ∧
      (∀ j ∈ plan.joins, j.relationship ∈ a.relationships) ∧
      SetAside isStatementChar (plan.joins.map fun j => j.relationship.condition)
        (q.sql.textWith (mark d .bound) 1) := by
  obtain ⟨plan, company, contact, _, _, hvalid, hplan, hcompany, hcontact, rfl⟩ := listing_eq_ok h
  have hdrawn : plan.DrawnFrom a := JoinPlan.drawnFrom_build hplan
  have hobjects : ∀ p ∈ plan.objects, p.Vetted := fun p hp =>
    vetted_of_validate hvalid p (hdrawn.objects p hp)
  have hnamed : (Condition.conjunction (company ++ contact)).Named :=
    JoinPlan.named_conjunction hvalid hcompany hcontact
  have hlimit : IsText (limitClause limit) := by
    cases limit with
    | none => exact .nil
    | some n =>
      refine isText_text.mpr ⟨?_, .nil⟩
      simp +decide only [ConsistsOf.append_iff, consistsOf_toString, and_self]
  have hrest := ((Condition.isText_whereClause hnamed).append hlimit).consistsOf_bound d 1
  exact ⟨plan, hplan, hdrawn.relationships, JoinPlan.setAside_listingHead hobjects hrest⟩

end Audience

/-! ## All statements -/

theorem Query.consistsOf_write {q : Query} (h : q.sql.IsText) (o : CompileOptions) :
    ConsistsOf isStatementChar (q.write (o.withValueMode .bound)).sql := by
  have hbound : (q.write (o.withValueMode .bound)).sql = q.sql.textWith (mark o.dialect .bound) 1 :=
    write_text o.dialect .bound q.sql
  rw [hbound]
  exact h.consistsOf_bound o.dialect 1

namespace Audience

variable (a : Audience) (fs : FilterSet) (limit : Option Nat) (o : CompileOptions)

/-- **In bound mode all statements are written in one small alphabet**: whatever an audience, the
settings and the filters contain, a statement that compiles has no other characters. Of a listing this
holds once the conditions of its relationships are set aside, each of which stands right after `ON`. -/
theorem statements_in_alphabet (label field : String) (rows : Nat) :
    (∀ s, a.countsStatement fs (o.withValueMode .bound) = .ok s → ConsistsOf isStatementChar s.sql) ∧
      (∀ s, a.companyStatement fs limit (o.withValueMode .bound) = .ok s →
        ConsistsOf isStatementChar s.sql) ∧
      (∀ s, a.contactStatement fs limit (o.withValueMode .bound) = .ok s →
        ConsistsOf isStatementChar s.sql) ∧
      (∀ s, a.distinctStatement label field rows (o.withValueMode .bound) = .ok s →
        ConsistsOf isStatementChar s.sql) ∧
      ∀ s, a.listingStatement fs limit (o.withValueMode .bound) = .ok s →
        ∃ plan, JoinPlan.build a o.compiler.joinStrategy = .ok plan ∧
          (∀ j ∈ plan.joins, j.relationship ∈ a.relationships) ∧
          SetAside isStatementChar (plan.joins.map fun j => j.relationship.condition) s.sql := by
  refine ⟨?_, ?_, ?_, ?_, ?_⟩
  · intro s h
    obtain ⟨st, hst, rfl⟩ := countsStatement_eq_ok_iff.mp h
    exact Query.consistsOf_write (vetted_of_stage hst).isText_counts o
  · intro s h
    obtain ⟨st, hst, rfl⟩ := companyStatement_eq_ok_iff.mp h
    exact Query.consistsOf_write ((vetted_of_stage hst).isText_companyPreview _) o
  · intro s h
    obtain ⟨st, hst, rfl⟩ := contactStatement_eq_ok_iff.mp h
    exact Query.consistsOf_write ((vetted_of_stage hst).isText_contactPreview _) o
  · intro s h
    obtain ⟨q, hq, rfl⟩ := map_eq_ok_iff.mp h
    exact Query.consistsOf_write (isText_distinct hq) o
  · intro s h
    rw [listingStatement_eq] at h
    obtain ⟨q, hq, rfl⟩ := map_eq_ok_iff.mp h
    obtain ⟨plan, hplan, hrelationships, haside⟩ := setAside_listing hq o.dialect
    have hbound : (q.write (o.withValueMode .bound)).sql =
        q.sql.textWith (mark o.dialect .bound) 1 :=
      write_text o.dialect .bound q.sql
    rw [hbound]
    exact ⟨plan, hplan, hrelationships, haside⟩

/-- The sample with names that are no identifiers, and with a text in the condition of its
relationship. -/
def oddlyNamed : Audience where
  objects :=
    [{ object := { Sample.companies with
        name? := some "Firms; --"
        fields := { name := "Firm's note", column := some "note", listsDistinct := true } ::
          Sample.companies.fields }
       label := "c", role := some .parent },
      { object := Sample.contacts, label := "p", role := some .child }]
  relationships := [{ condition := "c.company_id = p.company_id AND c.note != '-'" }]
  joinKey := some "company_id"

/-- Filters with quotes and comments in their operands. -/
def quoting : FilterSet where
  company := [Sample.filter "country" .equals "' OR 1=1 --"]
  contact := [Sample.filter "job_title" .contains "\"; /*"]

/-- Neither names nor operands bring foreign characters into the statements of the sample. -/
theorem sample_statements_in_alphabet :
    (∃ s, oddlyNamed.countsStatement quoting (({} : CompileOptions).withValueMode .bound) = .ok s ∧
        ConsistsOf isStatementChar s.sql) ∧
      (∃ s, oddlyNamed.companyStatement quoting none (({} : CompileOptions).withValueMode .bound) =
        .ok s ∧ ConsistsOf isStatementChar s.sql) ∧
      (∃ s, oddlyNamed.contactStatement quoting none (({} : CompileOptions).withValueMode .bound) =
        .ok s ∧ ConsistsOf isStatementChar s.sql) ∧
      (∃ s, oddlyNamed.distinctStatement "c" "Firm's note" 5
        (({} : CompileOptions).withValueMode .bound) = .ok s ∧ ConsistsOf isStatementChar s.sql) ∧
      ∃ s, oddlyNamed.listingStatement quoting none (({} : CompileOptions).withValueMode .bound) =
          .ok s ∧ SetAside isStatementChar ["c.company_id = p.company_id AND c.note != '-'"] s.sql := by
  obtain ⟨hcounts, hcompany, hcontact, hdistinct, hlisting⟩ :=
    oddlyNamed.statements_in_alphabet quoting none {} "c" "Firm's note" 5
  refine ⟨⟨_, rfl, hcounts _ rfl⟩, ⟨_, rfl, hcompany _ rfl⟩, ⟨_, rfl, hcontact _ rfl⟩,
    ⟨_, rfl, hdistinct _ rfl⟩, _, rfl, ?_⟩
  obtain ⟨plan, hplan, _, haside⟩ := hlisting _ rfl
  cases hplan
  exact haside

end Audience

end Targeting
