import Targeting.Proofs.Compilation
import Targeting.Proofs.SearchCondition

/-!
# The tokens of comparisons

The text of a comparison of a named column with scalars is one predicate of SQL, in either value mode and
wherever its operands are numbered from. A comparison with no values to look the column up in is none: it
is one of the two constants.

* `Comparison.isOpen`: comparisons that a row decides;
* `LexesAs`: an operand that is written as tokens of some kind;
* `lexes_compared`, `lexes_listed`, `lexes_tested`: a column with one operand, with a list and with none;
* **`Comparison.lexes_sql`**: the text of an open comparison is a predicate.
-/

namespace Targeting

/-- The comparison is decided by a row only; with no values to look the column up in it is not. -/
def Comparison.isOpen : Comparison → Bool
  | isIn [] | notIn [] => false
  | _ => true

theorem Comparison.isOpen_eq_false {c : Comparison} (h : c.isOpen = false) :
    c = isIn [] ∨ c = notIn [] := by
  unfold isOpen at h
  split at h
  · exact Or.inl rfl
  · exact Or.inr rfl
  · cases h

section

variable {w : Nat → Value → String} (i : Nat) {column : String}

/-- The operand is written as tokens of some kind, wherever it stands. -/
def LexesAs (O : List Token → Prop) (w : Nat → Value → String) (v : Value) : Prop :=
  ∀ i, ∃ ts, O ts ∧ Lexes (w i v) ts

variable {O : List Token → Prop}

theorem lexes_compared {op : String} {ts : List Token} {v : Value} (hcolumn : isQualified column = true)
    (hop : Closed op ts) (hapart : Apart op.toList) (hne : op.toList ≠ []) (hv : LexesAs O w v) :
    ∃ us, O us ∧ Lexes (Sql.textWith w i [.text (column ++ op), .operand v])
      (.word column :: (ts ++ us)) := by
  obtain ⟨us, hus, hlexes⟩ := hv i
  refine ⟨us, hus, ?_⟩
  rw [Sql.textWith, Sql.textWith, Sql.textWith, String.append_empty]
  exact ((lexes_word hcolumn).append_closed hop hapart hne).append_lexes hlexes

theorem lexes_operandList {vs : List Value} (hne : vs ≠ []) (hvs : ∀ v ∈ vs, LexesAs O w v) :
    ∃ us, ListOf O us ∧ Lexes (Sql.textWith w i (Sql.operandList vs)) us := by
  fun_induction Sql.operandList vs generalizing i with
  | case1 => exact absurd rfl hne
  | case2 v =>
    obtain ⟨us, hus, hlexes⟩ := hvs v List.mem_cons_self i
    rw [Sql.textWith, Sql.textWith, String.append_empty]
    exact ⟨us, .single hus, hlexes⟩
  | case3 v x rest ih =>
    obtain ⟨hv, hrest⟩ := List.forall_mem_cons.mp hvs
    obtain ⟨us, hus, hlexes⟩ := hv i
    obtain ⟨us', hus', hlexes'⟩ := ih (i + 1) (List.cons_ne_nil x rest) hrest
    have hcomma : Closed ", " [.symbol ','] := fun _ => rfl
    have happ := hcomma.append_lexes hlexes'
    refine ⟨_, .cons hus hus', ?_⟩
    rw [Sql.textWith, Sql.textWith]
    refine hlexes.append happ ?_
    rw [String.toList_append]
    exact apart_cons_iff.mpr (by decide)

theorem lexes_listed {op : String} {ts : List Token} {vs : List Value}
    (hcolumn : isQualified column = true) (hop : Closed op ts) (hapart : Apart op.toList)
    (hlist : op.toList ≠ []) (hne : vs ≠ []) (hvs : ∀ v ∈ vs, LexesAs O w v) :
    ∃ us, ListOf O us ∧
      Lexes (Sql.textWith w i (.text (column ++ op) :: (Sql.operandList vs ++ [.text ")"])))
        (.word column :: (ts ++ (us ++ [.symbol ')']))) := by
  obtain ⟨us, hus, hlexes⟩ := lexes_operandList i hne hvs
  have hclose : Closed ")" [.symbol ')'] := fun _ => rfl
  refine ⟨us, hus, ?_⟩
  rw [Sql.textWith, Sql.textWith_append, Sql.textWith, Sql.textWith, String.append_empty]
  exact ((lexes_word hcolumn).append_closed hop hapart hlist).append_lexes
    (hlexes.append hclose.lexes (by decide))

theorem lexes_tested {test : String} {ts : List Token} (hcolumn : isQualified column = true)
    (htest : Lexes test ts) (hapart : Apart test.toList) :
    Lexes (Sql.textWith w i [.text (column ++ test)]) (.word column :: ts) := by
  rw [Sql.textWith, Sql.textWith, String.append_empty]
  exact (lexes_word hcolumn).append htest hapart

theorem lexes_isNull : Lexes " IS NULL" [.word "IS", .word "NULL"] := by
  have his : Closed " IS " [.word "IS"] := fun _ => rfl
  have hnull : Lexes "NULL" [.word "NULL"] := lexes_word (by decide)
  have htext : " IS NULL" = " IS " ++ "NULL" := by decide
  rw [htext]
  exact his.append_lexes hnull

theorem lexes_isNotNull : Lexes " IS NOT NULL" [.word "IS", .word "NOT", .word "NULL"] := by
  have his : Closed " IS NOT " [.word "IS", .word "NOT"] := fun _ => rfl
  have hnull : Lexes "NULL" [.word "NULL"] := lexes_word (by decide)
  have htext : " IS NOT NULL" = " IS NOT " ++ "NULL" := by decide
  rw [htext]
  exact his.append_lexes hnull

/-- **The text of an open comparison is a predicate**, with operands of the kind that its own are
written as. -/
theorem Comparison.lexes_sql {c : Comparison} (hcolumn : isQualified column = true)
    (hoperands : ∀ v ∈ (c.sql column).operands, LexesAs O w v) (hopen : c.isOpen = true) :
    ∃ ts, PredicateOf O ts ∧ Lexes ((c.sql column).textWith w i) ts := by
  have compared : ∀ op ts {v}, Closed op ts → Apart op.toList ∧ op.toList ≠ [] ∧ ts ∈ comparators →
      LexesAs O w v → ∃ us, PredicateOf O us ∧
        Lexes (Sql.textWith w i [.text (column ++ op), .operand v]) us := by
    intro op ts v hop ⟨hapart, hne, hts⟩ hv
    obtain ⟨us, hus, hlexes⟩ := lexes_compared i hcolumn hop hapart hne hv
    exact ⟨_, .compare column hts hus, hlexes⟩
  have listed : ∀ op ts {vs}, Closed op (ts ++ [.symbol '(']) →
      Apart op.toList ∧ op.toList ≠ [] ∧ ts ∈ memberships → vs ≠ [] →
        (∀ v ∈ vs, LexesAs O w v) → ∃ us, PredicateOf O us ∧
          Lexes (Sql.textWith w i
            (.text (column ++ op) :: (Sql.operandList vs ++ [.text ")"]))) us := by
    intro op ts vs hop ⟨hapart, hlist, hts⟩ hne hvs
    obtain ⟨us, hus, hlexes⟩ := lexes_listed i hcolumn hop hapart hlist hne hvs
    rw [List.append_assoc] at hlexes
    exact ⟨_, .member column hts hus, hlexes⟩
  cases c with
  | equal v =>
    by_cases hv : v = .null
    · subst hv
      exact ⟨_, .null column (by decide), lexes_tested i hcolumn lexes_isNull (by decide)⟩
    · have hsql : (equal v).sql column = [.text (column ++ " = "), .operand v] := by
        rw [sql]
        exact hv
      rw [hsql] at hoperands ⊢
      exact compared " = " [.symbol '='] (fun _ => rfl) (by decide) (hoperands v List.mem_cons_self)
  | notEqual v =>
    by_cases hv : v = .null
    · subst hv
      exact ⟨_, .null column (by decide), lexes_tested i hcolumn lexes_isNotNull (by decide)⟩
    · have hsql : (notEqual v).sql column = [.text (column ++ " != "), .operand v] := by
        rw [sql]
        exact hv
      rw [hsql] at hoperands ⊢
      exact compared " != " [.symbol '!', .symbol '='] (fun _ => rfl) (by decide)
        (hoperands v List.mem_cons_self)
  | greater v =>
    exact compared " > " [.symbol '>'] (fun _ => rfl) (by decide) (hoperands v List.mem_cons_self)
  | less v =>
    exact compared " < " [.symbol '<'] (fun _ => rfl) (by decide) (hoperands v List.mem_cons_self)
  | contains text =>
    exact compared " LIKE " [.word "LIKE"] (fun _ => rfl) (by decide) (hoperands _ List.mem_cons_self)
  | notContains text =>
    exact compared " NOT LIKE " [.word "NOT", .word "LIKE"] (fun _ => rfl) (by decide)
      (hoperands _ List.mem_cons_self)
  | isIn items =>
    cases items with
    | nil => cases hopen
    | cons v rest =>
      rw [operands_isIn] at hoperands
      exact listed " IN (" [.word "IN"] (fun _ => rfl) (by decide) (List.cons_ne_nil v rest) hoperands
  | notIn items =>
    cases items with
    | nil => cases hopen
    | cons v rest =>
      rw [operands_notIn] at hoperands
      exact listed " NOT IN (" [.word "NOT", .word "IN"] (fun _ => rfl) (by decide)
        (List.cons_ne_nil v rest) hoperands

end

/-! ## Literals -/

theorem lexesAs_isOperand (d : Dialect) (mode : ValueMode) {v : Value} (h : v.isScalar = true) :
    LexesAs IsOperand (Sql.mark d mode) v :=
  fun i => Sql.lexes_mark d mode i h

/-- A place is one operand of the grammar, whatever it stands for. -/
theorem lexesAs_isOperand_bound (d : Dialect) (v : Value) : LexesAs IsOperand (Sql.mark d .bound) v :=
  fun i => ⟨_, .place _, d.lexes_placeholder i⟩

namespace Value

theorem exists_lexes_quiet_scalar {v : Value} (h : v.isScalar = true) :
    ∃ ts, IsQuiet ts ∧ Lexes v.literal ts := by
  obtain ⟨ts, hspelled, hlexes⟩ := lexes_literal h
  exact ⟨ts, hspelled.isOperand.quiet, hlexes⟩

mutual

/-- The literal of a value is quiet, even that of a list inside a list. -/
theorem exists_lexes_quiet : ∀ v : Value, ∃ ts, IsQuiet ts ∧ Lexes v.literal ts
  | null | bool _ | int _ | float _ | string _ | date _ | dateTime _ | json _ =>
    exists_lexes_quiet_scalar rfl
  | list items => by
    rw [literal]
    exact exists_lexes_quiet_items items

theorem exists_lexes_quiet_items : ∀ items : List Value,
    ∃ ts, IsQuiet ts ∧ Lexes (String.intercalate ", " (literals items)) ts
  | [] => ⟨[], List.forall_mem_nil _, Lexes.empty⟩
  | [v] => by
    rw [literals, literals, String.intercalate_singleton]
    exact exists_lexes_quiet v
  | v :: x :: rest => by
    obtain ⟨ts, hts, hlexes⟩ := exists_lexes_quiet v
    obtain ⟨us, hus, hlexes'⟩ := exists_lexes_quiet_items (x :: rest)
    have hcomma : Closed ", " [.symbol ','] := fun _ => rfl
    rw [literals] at hlexes'
    rw [literals, literals, String.intercalate_cons_cons, String.append_assoc]
    refine ⟨_, hts.list hus, hlexes.append (hcomma.append_lexes hlexes') ?_⟩
    rw [String.toList_append]
    exact apart_cons_iff.mpr (by decide)

end

end Value

/-- Any operand is quiet in either value mode. -/
theorem lexesAs_isQuiet (d : Dialect) (mode : ValueMode) (v : Value) :
    LexesAs IsQuiet (Sql.mark d mode) v := by
  intro i
  cases mode with
  | bound => exact ⟨_, (IsOperand.place _).quiet, d.lexes_placeholder i⟩
  | inline => exact v.exists_lexes_quiet

end Targeting
