import Targeting.Proofs.Leaves

/-!
# The contents of operands left out

What is left of SQL, of a comparison and of a condition if the contents of all operands are left out.
Text with places can be written down from it, and grouping does not look at more of a condition.

* `Sql.blank`, `Comparison.blank`, `Condition.blank`;
* **`Sql.textWith_blank`**, `Sql.length_operands_blank`: text with places does not show contents;
* **`Condition.blank_grouped`**, `Condition.blank_conjunction`: grouping does not look at contents;
* **`Condition.blank_sqlAt`**: the SQL of a condition, up to contents.
-/

namespace Targeting

/-! ## SQL -/

/-- A piece without the contents of its operand. -/
def Sql.Piece.blank : Sql.Piece → Sql.Piece
  | .text s => .text s
  | .operand _ => .operand .null

namespace Sql

/-- SQL without the contents of its operands. -/
def blank (q : Sql) : Sql := q.map Piece.blank

@[simp]
theorem blank_append (p q : Sql) : blank (p ++ q) = blank p ++ blank q := List.map_append

@[simp]
theorem blank_text (s : String) (q : Sql) : blank (.text s :: q) = .text s :: blank q := rfl

@[simp]
theorem blank_operand (v : Value) (q : Sql) : blank (.operand v :: q) = .operand .null :: blank q :=
  rfl

theorem length_operands_blank (q : Sql) : q.blank.operands.length = q.operands.length := by
  induction q with
  | nil => rfl
  | cons p rest ih =>
    cases p with
    | text s => exact ih
    | operand v => rw [blank_operand, operands, operands, List.length_cons, List.length_cons, ih]

/-- **Text with places does not show the contents of operands.** -/
theorem textWith_blank (d : Dialect) (i : Nat) (q : Sql) :
    textWith (mark d .bound) i q.blank = textWith (mark d .bound) i q := by
  induction q generalizing i with
  | nil => rfl
  | cons p rest ih =>
    cases p with
    | text s => rw [blank_text, textWith, textWith, ih]
    | operand v => rw [blank_operand, textWith, textWith, ih, mark, mark]

/-- Operands with commas in between show nothing but their number. -/
theorem blank_operandList {vs ws : List Value} (h : vs.length = ws.length) :
    blank (operandList vs) = blank (operandList ws) := by
  induction vs generalizing ws with
  | nil => rw [List.length_eq_zero_iff.mp h.symm]
  | cons v vs ih =>
    obtain ⟨w, ws, rfl⟩ := List.exists_cons_of_length_eq_add_one h.symm
    cases vs with
    | nil =>
      rw [List.length_eq_zero_iff.mp (Nat.succ.inj h.symm)]
      rfl
    | cons v' vs =>
      obtain ⟨w', ws, rfl⟩ := List.exists_cons_of_length_eq_add_one (Nat.succ.inj h.symm)
      rw [operandList, operandList, blank_operand, blank_text, blank_operand, blank_text,
        ih (Nat.succ.inj h)]

theorem blank_listed (s : String) {vs ws : List Value} (h : vs.length = ws.length) :
    blank (.text s :: (operandList vs ++ [.text ")"])) =
      blank (.text s :: (operandList ws ++ [.text ")"])) := by
  rw [blank_text, blank_text, blank_append, blank_append, blank_operandList h]

end Sql

/-! ## Comparisons and conditions -/

/-- A value without its contents; nothing but a null is told apart. -/
def Value.blank : Value → Value
  | .null => .null
  | _ => .string ""

theorem Value.blank_of_ne_null {v : Value} (h : v ≠ .null) : v.blank = .string "" := by
  cases v with
  | null => exact absurd rfl h
  | _ => rfl

namespace Comparison

/-- A comparison without the contents of its operands. -/
def blank : Comparison → Comparison
  | equal v => equal v.blank
  | notEqual v => notEqual v.blank
  | greater _ => greater (.string "")
  | less _ => less (.string "")
  | contains _ => contains ""
  | notContains _ => notContains ""
  | isIn items => isIn (items.map fun _ => .string "")
  | notIn items => notIn (items.map fun _ => .string "")

/-- The SQL of a comparison, up to contents. -/
theorem blank_sql (column : String) (c : Comparison) :
    (c.blank.sql column).blank = (c.sql column).blank := by
  cases c with
  | equal v => cases v <;> rfl
  | notEqual v => cases v <;> rfl
  | greater v => rfl
  | less v => rfl
  | contains text => rfl
  | notContains text => rfl
  | isIn items =>
    cases items with
    | nil => rfl
    | cons v rest => exact Sql.blank_listed _ (List.length_map _)
  | notIn items =>
    cases items with
    | nil => rfl
    | cons v rest => exact Sql.blank_listed _ (List.length_map _)

end Comparison

namespace Condition

mutual

/-- A condition without the contents of its operands. -/
def blank : Condition → Condition
  | compare column c => compare column c.blank
  | all cs => all (blanks cs)
  | any cs => any (blanks cs)

/-- Conditions without the contents of their operands. -/
def blanks : List Condition → List Condition
  | [] => []
  | c :: rest => c.blank :: blanks rest

end

theorem blanks_eq (cs : List Condition) : blanks cs = cs.map blank := by
  induction cs with
  | nil => rfl
  | cons c rest ih => rw [blanks, ih, List.map_cons]

theorem blank_compare (column : String) (c : Comparison) :
    (compare column c).blank = compare column c.blank := by
  rw [blank]

theorem blank_all (cs : List Condition) : (all cs).blank = all (cs.map blank) := by
  rw [blank, blanks_eq]

theorem blank_any (cs : List Condition) : (any cs).blank = any (cs.map blank) := by
  rw [blank, blanks_eq]

theorem isEmpty_blank (c : Condition) : c.blank.isEmpty = c.isEmpty := by
  cases c with
  | compare column c => rw [blank_compare]; rfl
  | all cs => rw [blank_all, isEmpty, isEmpty, List.isEmpty_map]
  | any cs => rw [blank_any, isEmpty, isEmpty, List.isEmpty_map]

end Condition

/-! ## Grouping -/

/-- A tied condition without the contents of its operands. -/
def Tied.blank (t : Tied) : Tied := (t.1.blank, t.2)

/-- **Runs do not look at conditions.** -/
theorem runs_blank (cs : List Tied) :
    runs (cs.map Tied.blank) = (runs cs).map fun r => (r.1, r.2.map Condition.blank) := by
  fun_induction runs cs with
  | case1 => rfl
  | case2 c k rest h ih => simp [runs, Tied.blank, ih, h]
  | case3 c k rest cs more h ih => simp [runs, Tied.blank, ih, h]
  | case4 c k rest l cs more h hk ih => simp [runs, Tied.blank, ih, h, hk]

/-- **Segments do not look at conditions.** -/
theorem segments_blank (cs : List Tied) :
    segments (cs.map Tied.blank) = (segments cs).map (List.map Condition.blank) := by
  fun_induction segments cs with
  | case1 => rfl
  | case2 c rest ih => simp [segments, Tied.blank, ih]
  | case3 c rest h ih => simp [segments, Tied.blank, ih, h]
  | case4 c rest cs more h ih => simp [segments, Tied.blank, ih, h]

namespace Condition

theorem blank_group (k : Connector) (cs : List Condition) :
    (group k cs).blank = group k (cs.map blank) := by
  match k, cs with
  | .and, [] | .or, [] => rfl
  | .and, [c] | .or, [c] => rfl
  | .and, c :: d :: rest => exact blank_all _
  | .or, c :: d :: rest => exact blank_any _

theorem blank_asConjunction (c : Condition) : c.asConjunction.blank = c.blank.asConjunction := by
  cases c with
  | compare column c => rfl
  | all cs => rfl
  | any cs => rfl

theorem blank_byAdjacency (cs : List Tied) :
    (byAdjacency cs).blank = byAdjacency (cs.map Tied.blank) := by
  rw [byAdjacency, byAdjacency, blank_all, runs_blank, List.map_map, List.map_map]
  congr 1
  exact List.map_congr_left fun r _ => blank_group r.1 r.2

theorem blank_byPrecedence (cs : List Tied) :
    (byPrecedence cs).blank = byPrecedence (cs.map Tied.blank) := by
  have hterms : (segments (cs.map Tied.blank)).map (group .and) =
      ((segments cs).map (group .and)).map blank := by
    rw [segments_blank, List.map_map, List.map_map]
    exact List.map_congr_left fun s _ => (blank_group .and s).symm
  rw [byPrecedence, byPrecedence, hterms]
  cases (segments cs).map (group .and) with
  | nil => rfl
  | cons c terms =>
    cases terms with
    | nil => exact blank_asConjunction c
    | cons d rest => exact blank_any _

/-- **Grouping does not look at the contents of operands.** -/
theorem blank_grouped (g : Grouping) (cs : List Tied) :
    (grouped g cs).blank = grouped g (cs.map Tied.blank) := by
  cases g
  · exact blank_byAdjacency cs
  · exact blank_byPrecedence cs

theorem conjuncts_blank (cs : List Condition) :
    conjuncts (cs.map blank) = (conjuncts cs).map blank := by
  fun_induction conjuncts cs with
  | case1 => rfl
  | case2 ds rest ih => rw [List.map_cons, blank_all, conjuncts, ih, List.map_append]
  | case3 rest ih => rw [List.map_cons, blank_any, List.map_nil, conjuncts, ih]
  | case4 c rest hall hany ih =>
    have hskip : conjuncts (c.blank :: rest.map blank) = c.blank :: conjuncts (rest.map blank) := by
      cases c with
      | compare column c => rfl
      | all ds => exact absurd rfl (hall ds)
      | any ds =>
        cases ds with
        | nil => exact absurd rfl hany
        | cons d ds => rfl
    rw [List.map_cons, hskip, ih, List.map_cons]

theorem blank_conjunction (cs : List Condition) :
    (conjunction cs).blank = conjunction (cs.map blank) := by
  rw [conjunction, blank_all, conjunction, conjuncts_blank]

/-! ## The SQL of a condition -/

theorem blank_enclosed (nested : Bool) (q : Sql) :
    (enclosed nested q).blank = enclosed nested q.blank := by
  cases nested
  · rfl
  · rw [enclosed, if_pos rfl, Sql.blank_text, Sql.blank_append, enclosed, if_pos rfl]
    rfl

theorem blank_sqlAfter {cs : List Condition}
    (hs : ∀ c ∈ cs, (c.blank.sqlAt true).blank = (c.sqlAt true).blank) (keyword : String) :
    (sqlAfter keyword (cs.map blank)).blank = (sqlAfter keyword cs).blank := by
  induction cs with
  | nil => rfl
  | cons c rest ih =>
    obtain ⟨hc, hrest⟩ := List.forall_mem_cons.mp hs
    rw [List.map_cons, sqlAfter, sqlAfter, Sql.blank_text, Sql.blank_text, Sql.blank_append,
      Sql.blank_append, hc, ih hrest]

/-- The members of a group, up to contents. -/
theorem blank_joined {cs : List Condition}
    (hs : ∀ c ∈ cs, (c.blank.sqlAt true).blank = (c.sqlAt true).blank) (keyword : String) :
    (joined keyword (cs.map blank)).blank = (joined keyword cs).blank := by
  cases cs with
  | nil => rfl
  | cons c rest =>
    obtain ⟨hc, hrest⟩ := List.forall_mem_cons.mp hs
    rw [List.map_cons, joined, joined, Sql.blank_append, Sql.blank_append, hc,
      blank_sqlAfter hrest]

/-- **The SQL of a condition, up to contents**, is that of the condition without them. -/
theorem blank_sqlAt (nested : Bool) (c : Condition) :
    (c.blank.sqlAt nested).blank = (c.sqlAt nested).blank := by
  induction c generalizing nested with
  | compare column c =>
    rw [blank_compare, sqlAt, sqlAt]
    exact Comparison.blank_sql column c
  | all cs ih =>
    by_cases h : cs = []
    · subst h; rfl
    · rw [blank_all, sqlAt_all h, sqlAt_all (mt List.map_eq_nil_iff.mp h), blank_enclosed,
        blank_enclosed, List.length_map, blank_joined fun c hc => ih c hc true]
  | any cs ih =>
    by_cases h : cs = []
    · subst h; rfl
    · rw [blank_any, sqlAt_any h, sqlAt_any (mt List.map_eq_nil_iff.mp h), blank_enclosed,
        blank_enclosed, List.length_map, blank_joined fun c hc => ih c hc true]

/-- Conditions that differ in contents only have clauses that do. -/
theorem blank_whereClause {c d : Condition} (h : c.blank = d.blank) :
    c.whereClause.blank = d.whereClause.blank := by
  have hempty : c.isEmpty = d.isEmpty := by rw [← isEmpty_blank, h, isEmpty_blank]
  have hsql : c.sql.blank = d.sql.blank := by
    rw [sql, sql, ← blank_sqlAt, h, blank_sqlAt]
  rw [whereClause, whereClause, hempty]
  split
  · rfl
  · rw [Sql.blank_text, Sql.blank_text, hsql]

end Condition

end Targeting
