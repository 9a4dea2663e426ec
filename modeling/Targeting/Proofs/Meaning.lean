import Targeting.Proofs.Predicate

/-!
# What conditions mean

The text of a condition, read by the grammar of SQL, is as true as the condition itself, whatever the
truth of its comparisons: there are parentheses wherever the grammar would take the text apart
differently.

* `Condition.questions`: the comparisons that are open; `Condition.holds`: the truth of a condition;
* `Condition.Plain`: columns are names and operands are scalars;
* `Condition.reads_joined`: members that are read as primaries are joined by the grammar;
* **`Condition.isReadBy_sqlAt`**, `Condition.isRead_sqlAt`: where a condition is nested it is read as a
  primary;
* **`Condition.sql_means`**: the one reading of a condition is as true as the condition.
-/

namespace Targeting

/-! ## Truth -/

namespace Condition

/-- The open comparisons in order. -/
def questions (c : Condition) : List (String × Comparison) := c.leaves.filter fun l => l.2.isOpen

mutual

/-- The truth of a condition if that of its open comparison with number `k` is `v k`, the first of them
with number `i`: all members of an "all of" hold, and some member of an "any of". -/
def holds (v : Nat → Bool) (i : Nat) : Condition → Bool
  | compare _ (.isIn []) => false
  | compare _ (.notIn []) => true
  | compare _ _ => v i
  | all cs => allHold v i cs
  | any cs => anyHolds v i cs

/-- All of these conditions hold. -/
def allHold (v : Nat → Bool) (i : Nat) : List Condition → Bool
  | [] => true
  | c :: rest => c.holds v i && allHold v (i + c.questions.length) rest

/-- Some of these conditions holds. -/
def anyHolds (v : Nat → Bool) (i : Nat) : List Condition → Bool
  | [] => false
  | c :: rest => c.holds v i || anyHolds v (i + c.questions.length) rest

end

/-- Columns are names with dots in between, and operands are scalars. -/
def Plain (c : Condition) : Prop :=
  ∀ l ∈ c.leaves, isQualified l.1 = true ∧ ∀ v ∈ (leafSql l).operands, v.isScalar = true

instance (c : Condition) : Decidable c.Plain :=
  inferInstanceAs (Decidable (∀ l ∈ c.leaves, _ ∧ ∀ v ∈ (leafSql l).operands, _))

end Condition

/-! ## Groups under a connector -/

namespace Connector

/-- The text between the members of a group. -/
def separator : Connector → String
  | .and => " AND "
  | .or => " OR "

/-- The truth of two formulas under a connector. -/
def both : Connector → Bool → Bool → Bool
  | .and => (· && ·)
  | .or => (· || ·)

/-- What the grammar reads the members of a group as. -/
def nonterminal : Connector → Nonterminal
  | .and => .term
  | .or => .condition

theorem both_assoc (k : Connector) (a b c : Bool) : k.both (k.both a b) c = k.both a (k.both b c) := by
  cases k
  · exact Bool.and_assoc a b c
  · exact Bool.or_assoc a b c

theorem closed_separator (k : Connector) : Closed k.separator [.word k.keyword] := by
  cases k <;> exact fun _ => rfl

theorem apart_separator (k : Connector) (cs : List Char) : Apart (k.separator.toList ++ cs) := by
  cases k <;> exact apart_cons_iff.mpr (by decide)

end Connector

namespace Formula

/-- Two formulas under a connector. -/
def join : Connector → Formula → Formula → Formula
  | .and => and
  | .or => or

theorem atoms_join (k : Connector) (f g : Formula) : (join k f g).atoms = f.atoms ++ g.atoms := by
  cases k <;> rfl

theorem holds_join (k : Connector) (f g : Formula) (v : Nat → Bool) (i : Nat) :
    (join k f g).holds v i = k.both (f.holds v i) (g.holds v (i + f.atoms.length)) := by
  cases k <;> rfl

end Formula

namespace Grammatical

variable {O : List Token → Prop} {P : Nonterminal → List Token → Formula → Prop} {k : Connector}
  {ts us : List Token} {f g : Formula}

theorem join (hP : Grammatical O P) (h : P k.nonterminal ts f) (h' : P .primary us g) :
    P k.nonterminal (ts ++ .word k.keyword :: us) (.join k f g) := by
  cases k
  · exact hP.and h h'
  · exact hP.or h (hP.primary h')

theorem ofPrimary (hP : Grammatical O P) (k : Connector) (h : P .primary ts f) :
    P k.nonterminal ts f := by
  cases k
  · exact hP.primary h
  · exact hP.term (hP.primary h)

theorem toCondition (hP : Grammatical O P) (h : P k.nonterminal ts f) : P .condition ts f := by
  cases k
  · exact hP.term h
  · exact h

end Grammatical

namespace Condition

/-- The members of a group under a connector. -/
def under : Connector → List Condition → Condition
  | .and => all
  | .or => any

/-- The truth of the members of a group. -/
def groupHolds : Connector → (Nat → Bool) → Nat → List Condition → Bool
  | .and => allHold
  | .or => anyHolds

theorem groupHolds_cons (k : Connector) (v : Nat → Bool) (i : Nat) (c : Condition)
    (rest : List Condition) : groupHolds k v i (c :: rest) =
      k.both (c.holds v i) (groupHolds k v (i + c.questions.length) rest) := by
  cases k
  · rw [groupHolds, allHold]
    rfl
  · rw [groupHolds, anyHolds]
    rfl

/-- Nothing more in a group makes no difference. -/
theorem both_groupHolds_nil (k : Connector) (b : Bool) (v : Nat → Bool) (i : Nat) :
    k.both b (groupHolds k v i []) = b := by
  cases k
  · rw [groupHolds, allHold]
    exact Bool.and_true b
  · rw [groupHolds, anyHolds]
    exact Bool.or_false b

theorem holds_under (k : Connector) (cs : List Condition) (v : Nat → Bool) (i : Nat) :
    (under k cs).holds v i = groupHolds k v i cs := by
  cases k
  · rw [under, holds, groupHolds]
  · rw [under, holds, groupHolds]

theorem sqlAt_under (k : Connector) {cs : List Condition} (h : cs ≠ []) (nested : Bool) :
    (under k cs).sqlAt nested =
      enclosed (nested && decide (2 ≤ cs.length)) (joined k.separator cs) := by
  cases k
  · exact sqlAt_all h nested
  · exact sqlAt_any h nested

theorem questions_under (k : Connector) (cs : List Condition) :
    (under k cs).questions = cs.flatMap questions := by
  cases k
  · rw [questions, under, leaves_all, List.filter_flatMap]
    rfl
  · rw [questions, under, leaves_any, List.filter_flatMap]
    rfl

theorem operands_questions (c : Condition) :
    (c.questions.flatMap fun l => (leafSql l).operands) =
      c.leaves.flatMap fun l => (leafSql l).operands := by
  rw [questions]
  induction c.leaves with
  | nil => rfl
  | cons l ls ih =>
    rw [List.filter_cons, List.flatMap_cons, ← ih]
    split
    · rw [List.flatMap_cons]
    · next h =>
      have hnil : (leafSql l).operands = [] := by
        obtain ⟨column, c⟩ := l
        rcases Comparison.isOpen_eq_false (Bool.not_eq_true _ ▸ h) with rfl | rfl <;> rfl
      rw [hnil, List.nil_append]

/-! ## Reading the text of a condition -/

section

variable (w : Nat → Value → String) (P : Nonterminal → List Token → Formula → Prop)

/-- SQL whose operands are numbered from `i` on is read as a formula over these questions. -/
structure ReadsAs (i : Nat) (q : Sql) (l : Nonterminal) (asked : List (String × Comparison))
    (truth : (Nat → Bool) → Nat → Bool) (ts : List Token) (f : Formula) : Prop where
  lexes : Lexes (q.textWith w i) ts
  parses : P l ts f
  atoms : f.atoms = (leafTexts w i asked).map tokens
  holds : ∀ v j, f.holds v j = truth v j

/-- What the grammar reads a condition as, nested or alone. -/
def nonterminal (nested : Bool) : Nonterminal := if nested then .primary else .condition

/-- A condition is read, nested or alone, wherever its operands are numbered from. -/
def IsReadBy (nested : Bool) (c : Condition) : Prop :=
  ∀ i, ∃ ts f, ReadsAs w P i (c.sqlAt nested) (nonterminal nested) c.questions c.holds ts f

/-- A condition is read by the grammar. -/
def IsRead (nested : Bool) (c : Condition) : Prop := IsReadBy w Parses nested c

end

section

variable {w : Nat → Value → String} {O : List Token → Prop}
  {P : Nonterminal → List Token → Formula → Prop}

namespace ReadsAs

variable {i : Nat} {q : Sql} {l : Nonterminal} {asked : List (String × Comparison)}
  {truth : (Nat → Bool) → Nat → Bool} {ts : List Token} {f : Formula}

theorem length_atoms (h : ReadsAs w P i q l asked truth ts f) : f.atoms.length = asked.length := by
  rw [h.atoms, List.length_map, leafTexts, Sql.length_texts, List.length_map]

theorem toCondition (hP : Grammatical O P) {k : Connector}
    (h : ReadsAs w P i q k.nonterminal asked truth ts f) :
    ReadsAs w P i q .condition asked truth ts f :=
  { h with parses := hP.toCondition h.parses }

/-- Parentheses make a condition a primary. -/
theorem enclosed (hP : Grammatical O P) (h : ReadsAs w P i q .condition asked truth ts f) :
    ReadsAs w P i (Condition.enclosed true q) .primary asked truth
      (.symbol '(' :: (ts ++ [.symbol ')'])) f where
  lexes := by
    have hopen : Closed "(" [.symbol '('] := fun _ => rfl
    have hclose : Closed ")" [.symbol ')'] := fun _ => rfl
    rw [Condition.enclosed, if_pos rfl, Sql.textWith, Sql.textWith_append, Sql.textWith, Sql.textWith,
      String.append_empty]
    exact hopen.append_lexes (h.lexes.append hclose.lexes (by decide))
  parses := hP.parentheses h.parses
  atoms := h.atoms
  holds := h.holds

theorem ofPrimary (hP : Grammatical O P) (h : ReadsAs w P i q .primary asked truth ts f)
    (nested : Bool) : ReadsAs w P i q (nonterminal nested) asked truth ts f := by
  cases nested
  · exact { h with parses := hP.term (hP.primary h.parses) }
  · exact h

end ReadsAs

theorem apart_sqlAfter (k : Connector) (cs : List Condition) (i : Nat) :
    Apart ((sqlAfter k.separator cs).textWith w i).toList := by
  cases cs with
  | nil => exact Apart.nil
  | cons c rest =>
    rw [sqlAfter, Sql.textWith, String.toList_append]
    exact k.apart_separator _

/-- Further members of a group extend what is read before them. -/
theorem reads_after (hP : Grammatical O P) (k : Connector) {cs : List Condition}
    (hs : ∀ c ∈ cs, IsReadBy w P true c) (i : Nat) {ts : List Token} {f : Formula}
    (hf : P k.nonterminal ts f) :
    ∃ us g, Lexes ((sqlAfter k.separator cs).textWith w i) us ∧ P k.nonterminal (ts ++ us) g ∧
      g.atoms = f.atoms ++ (leafTexts w i (cs.flatMap questions)).map tokens ∧
      ∀ v j, g.holds v j = k.both (f.holds v j) (groupHolds k v (j + f.atoms.length) cs) := by
  induction cs generalizing i ts f with
  | nil =>
    refine ⟨[], f, Lexes.empty, by rwa [List.append_nil], (List.append_nil _).symm, fun v j => ?_⟩
    rw [both_groupHolds_nil]
  | cons c rest ih =>
    obtain ⟨us, g, hg⟩ := hs c List.mem_cons_self i
    -- Both connectives associate to the left: what was read so far is the left side of this join.
    have hjoin := hP.join hf hg.parses
    obtain ⟨us', g', hlexes, hparses, hatoms, hholds⟩ :=
      ih (fun d hd => hs d (List.mem_cons_of_mem _ hd)) (i + (c.sqlAt true).operands.length) hjoin
    refine ⟨.word k.keyword :: (us ++ us'), g', ?_, ?_, ?_, fun v j => ?_⟩
    · rw [sqlAfter, Sql.textWith, Sql.textWith_append]
      exact k.closed_separator.append_lexes (hg.lexes.append hlexes (apart_sqlAfter k rest _))
    · rwa [List.append_assoc] at hparses
    · rw [hatoms, Formula.atoms_join, hg.atoms, List.flatMap_cons, leafTexts_append, List.map_append,
        List.append_assoc, operands_sqlAt, operands_questions]
    · rw [hholds, Formula.holds_join, Formula.atoms_join, List.length_append, hg.holds, k.both_assoc,
        groupHolds_cons, hg.length_atoms, Nat.add_assoc]

/-- **The members of a group are read as its connector joins them.** -/
theorem reads_joined (hP : Grammatical O P) (k : Connector) {cs : List Condition} (hne : cs ≠ [])
    (hs : ∀ c ∈ cs, IsReadBy w P true c) (i : Nat) :
    ∃ ts f, ReadsAs w P i (joined k.separator cs) k.nonterminal (cs.flatMap questions)
      (fun v j => groupHolds k v j cs) ts f := by
  obtain ⟨c, rest, rfl⟩ := List.exists_cons_of_ne_nil hne
  obtain ⟨ts, f, hf⟩ := hs c List.mem_cons_self i
  obtain ⟨us, g, hlexes, hparses, hatoms, hholds⟩ := reads_after hP k
    (fun d hd => hs d (List.mem_cons_of_mem _ hd)) (i + (c.sqlAt true).operands.length)
    (hP.ofPrimary k hf.parses)
  refine ⟨ts ++ us, g, ?_, hparses, ?_, fun v j => ?_⟩
  · rw [joined, Sql.textWith_append]
    exact hf.lexes.append hlexes (apart_sqlAfter k rest _)
  · rw [hatoms, hf.atoms, List.flatMap_cons, leafTexts_append, List.map_append, operands_sqlAt,
      operands_questions]
  · rw [hholds, hf.holds, hf.length_atoms, groupHolds_cons]

theorem reads_const (hP : Grammatical O P) (i : Nat) (b : Bool) :
    ReadsAs w P i [.text (if b then "1=1" else "1=0")] .primary [] (fun _ _ => b) (constantTokens b)
      (.const b) where
  lexes := by
    rw [Sql.textWith, Sql.textWith, String.append_empty]
    intro rest hrest
    cases b
    · exact congrArg ([.number "1", .symbol '='] ++ ·) (lex_run ['0'] (List.forall_mem_nil _) hrest)
    · exact congrArg ([.number "1", .symbol '='] ++ ·) (lex_run ['1'] (List.forall_mem_nil _) hrest)
  parses := hP.const b
  atoms := rfl
  holds _ _ := rfl

/-- A group is read as it is nested if its members are read as primaries. -/
theorem isReadBy_under (hP : Grammatical O P) (k : Connector) {cs : List Condition}
    (hs : ∀ c ∈ cs, IsReadBy w P true c) (nested : Bool) : IsReadBy w P nested (under k cs) := by
  intro i
  have htruth : (under k cs).holds = fun v j => groupHolds k v j cs := by
    funext v j
    exact holds_under k cs v j
  rw [htruth, questions_under]
  match cs with
  | [] =>
    cases k with
    | and => exact ⟨_, _, (reads_const hP i true).ofPrimary hP nested⟩
    | or => exact ⟨_, _, (reads_const hP i false).ofPrimary hP nested⟩
  | [c] =>
    -- A single member is written as if it were nested, whatever the group is.
    obtain ⟨ts, f, hf⟩ := hs c List.mem_cons_self i
    have htruth₁ : (fun v j => groupHolds k v j [c]) = c.holds := by
      funext v j
      rw [groupHolds_cons, both_groupHolds_nil]
    have hsql : (under k [c]).sqlAt nested = c.sqlAt true := by
      cases k <;> rw [under, sqlAt]
    rw [htruth₁, List.flatMap_singleton, hsql]
    exact ⟨ts, f, hf.ofPrimary hP nested⟩
  | c :: d :: rest =>
    obtain ⟨ts, f, hf⟩ := reads_joined hP k (List.cons_ne_nil c (d :: rest)) hs i
    have hlength : decide (2 ≤ (c :: d :: rest).length) = true := by
      simp only [List.length_cons]
      exact decide_eq_true (by omega)
    rw [sqlAt_under k (List.cons_ne_nil c _), hlength, Bool.and_true]
    -- Members joined by a connector are a search condition, and a primary only between parentheses.
    cases nested
    · exact ⟨ts, f, hf.toCondition hP⟩
    · exact ⟨_, f, (hf.toCondition hP).enclosed hP⟩

theorem holds_open {column : String} {c : Comparison} (h : c.isOpen = true) :
    (compare column c).holds = fun v i => v i := by
  funext v i
  rw [holds]
  · rintro rfl
    cases h
  · rintro rfl
    cases h

theorem isReadBy_compare (hP : Grammatical O P) {column : String} {c : Comparison}
    (hcolumn : isQualified column = true) (hoperands : ∀ v ∈ (c.sql column).operands, LexesAs O w v)
    (nested : Bool) : IsReadBy w P nested (compare column c) := by
  intro i
  cases hopen : c.isOpen with
  | true =>
    obtain ⟨ts, hts, hlexes⟩ := c.lexes_sql i hcolumn hoperands hopen
    have hquestions : (compare column c).questions = [(column, c)] := by
      rw [questions, leaves_compare, List.filter_singleton, hopen]
      rfl
    have hread : ReadsAs w P i (c.sql column) .primary [(column, c)] (fun v j => v j) ts (.atom ts) :=
      ⟨hlexes, hP.predicate hts, congrArg ([·]) hlexes.tokens.symm, fun _ _ => rfl⟩
    rw [hquestions, sqlAt, holds_open hopen]
    exact ⟨ts, _, hread.ofPrimary hP nested⟩
  | false =>
    rcases Comparison.isOpen_eq_false hopen with rfl | rfl
    · exact ⟨_, _, (reads_const hP i false).ofPrimary hP nested⟩
    · exact ⟨_, _, (reads_const hP i true).ofPrimary hP nested⟩

/-- **A condition on named columns is read as it is nested**, as a primary inside a group and as a
search condition alone, by any way of reading that obeys the grammar. -/
theorem isReadBy_sqlAt (hP : Grammatical O P) {c : Condition}
    (hcolumns : ∀ l ∈ c.leaves, isQualified l.1 = true)
    (hoperands : ∀ l ∈ c.leaves, ∀ v ∈ (leafSql l).operands, LexesAs O w v) (nested : Bool) :
    IsReadBy w P nested c := by
  induction c generalizing nested with
  | compare column c =>
    rw [leaves_compare, List.forall_mem_singleton] at hcolumns hoperands
    exact isReadBy_compare hP hcolumns hoperands nested
  | all cs ih =>
    rw [leaves_all, List.forall_mem_flatMap] at hcolumns hoperands
    exact isReadBy_under hP .and (fun c hc => ih c hc (hcolumns c hc) (hoperands c hc) true) nested
  | any cs ih =>
    rw [leaves_any, List.forall_mem_flatMap] at hcolumns hoperands
    exact isReadBy_under hP .or (fun c hc => ih c hc (hcolumns c hc) (hoperands c hc) true) nested

end

variable {d : Dialect} {mode : ValueMode}

/-- **A plain condition is read by the grammar.** -/
theorem isRead_sqlAt {c : Condition} (h : c.Plain) (nested : Bool) :
    IsRead (Sql.mark d mode) nested c :=
  isReadBy_sqlAt grammatical_parses (fun l hl => (h l hl).1)
    (fun l hl v hv => lexesAs_isOperand d mode ((h l hl).2 v hv)) nested

/-- **The text of a condition has one reading, and it is as true as the condition**: its atoms are the
texts of the open comparisons in order, and whatever is true of these, it holds exactly if the condition
does. -/
theorem sql_means {c : Condition} (h : c.Plain) (d : Dialect) (mode : ValueMode) :
    ∃ f, Reads (c.sql.write d mode).text f ∧ (∀ g, Reads (c.sql.write d mode).text g → g = f) ∧
      f.atoms = (leafTexts (Sql.mark d mode) 1 c.questions).map tokens ∧
      ∀ v, f.holds v 0 = c.holds v 0 := by
  have hread : IsRead (Sql.mark d mode) false c := isRead_sqlAt h false
  obtain ⟨ts, f, hf⟩ := hread 1
  have hreads : Reads (c.sql.write d mode).text f := by
    rw [Reads, Sql.write_text, sql, hf.lexes.tokens]
    exact hf.parses
  exact ⟨f, hreads, fun g hg => Parses.unique hg hreads, hf.atoms, fun v => hf.holds v 0⟩

/-- An "any of" inside an "all of", with a quote in an operand and a list without values. -/
def sampleNested : Condition :=
  all
    [any [compare "c.country" (.equal (.string "O'Neil")), compare "c.industry" (.equal .null)],
      compare "p.title" (.notIn [])]

example : (sampleNested.sql.write .postgres .inline).text =
    "(c.country = 'O''Neil' OR c.industry IS NULL) AND 1=1" := rfl

theorem sample_sql_means :
    sampleNested.Plain ∧ ∃ f, Reads (sampleNested.sql.write .postgres .inline).text f ∧
      (∀ g, Reads (sampleNested.sql.write .postgres .inline).text g → g = f) ∧
      f.atoms = (leafTexts (Sql.mark .postgres .inline) 1 sampleNested.questions).map tokens ∧
      ∀ v, f.holds v 0 = sampleNested.holds v 0 := by
  have hplain : sampleNested.Plain := by decide
  exact ⟨hplain, sql_means hplain .postgres .inline⟩

end Condition

end Targeting
