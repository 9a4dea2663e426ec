import Targeting.Proofs.Rendering
import Targeting.Query.Distinct
import Targeting.Query.Listing
import Targeting.Query.Staged

/-!
# What is written is the query

A writer decides at each operand whether it becomes a literal or a parameter. SQL with operands leaves that
open. Whatever a writer writes for a comparison, a condition or a whole query, it writes the SQL of it piece
by piece, behind what has been written before: no operand is lost or moved, and no place gets a number that
is not its own.

* `Writer.put`: the pieces of SQL one after the other; `Writer.put_append`, `Writer.put_nothing`;
* `Writer.Puts`: a step of a writer is to put SQL; `Puts.andThen`: so are two steps;
* `Writer.puts_comparison`, **`Writer.puts_condition`**, `Writer.puts_whereClause`: conditions;
* `Basis.statement_eq`, `Stage.countsStatement_eq`, `Stage.previewStatement_eq`: whole queries;
* **`Audience.listingStatement_eq`**, **`Audience.countsStatement_of_stage`**,
  **`Audience.companyStatement_of_stage`**, **`Audience.contactStatement_of_stage`**: every statement is its
  query as options ask for it.
-/

namespace Targeting

namespace Sql.Written

/-- What stands around operands may be written by itself. -/
theorem fill_eq (w : Written) (before : String) (operands : List Value → String × List Value)
    (after : String) : w.fill before operands after = ((w.push before).fill "" operands "").push after := by
  simp only [fill, push, String.append_empty]

theorem fill_empty (w : Written) (before : String) (operands : List Value → String × List Value) :
    w.fill before operands "" = (w.push before).fill "" operands "" := by
  simp only [fill, push, String.append_empty]

end Sql.Written

namespace Writer

variable (r : Writer)

/-! ## Pieces -/

/-- The pieces of SQL are written one after the other. -/
def put : Sql → Sql.Written → Sql.Written
  | [], w => w
  | .text s :: rest, w => put rest (w.push s)
  | .operand v :: rest, w => put rest (w.fill "" (r.operand v) "")

theorem put_append (p q : Sql) (w : Sql.Written) : r.put (p ++ q) w = r.put q (r.put p w) := by
  induction p generalizing w with
  | nil => rfl
  | cons piece rest ih => cases piece <;> exact ih _

/-- SQL is put with the marks of its operands, which are numbered on from the parameters before. -/
theorem put_eq (q : Sql) (w : Sql.Written) : r.put q w =
    ⟨w.text ++ q.textWith (Sql.mark r.dialect r.mode) (w.params.length + 1),
      w.params ++ match r.mode with
        | .bound => q.operands
        | .inline => []⟩ := by
  induction q generalizing w with
  | nil => cases r.mode <;> simp [put, Sql.textWith, Sql.operands]
  | cons piece rest ih =>
    cases piece with
    | text s =>
      rw [put, ih]
      cases r.mode <;> simp [Sql.Written.push, Sql.textWith, Sql.operands, String.append_assoc]
    | operand v =>
      rw [put, ih]
      cases hmode : r.mode with
      | bound =>
        simp [Sql.Written.fill, operand, hmode, Sql.textWith, Sql.operands, Sql.mark,
          String.append_assoc]
      | inline =>
        rw [Sql.textWith, ← Sql.inline_eq r.dialect, ← Sql.inline_eq r.dialect]
        simp [Sql.Written.fill, operand, hmode, Sql.mark, String.append_assoc]

/-- **SQL that is put behind nothing is SQL as it is sent.** -/
theorem put_nothing (q : Sql) : r.put q .nothing = q.write r.dialect r.mode := by
  rw [put_eq]
  cases hmode : r.mode with
  | bound =>
    simp only [Sql.Written.nothing, Sql.write, Sql.bound_eq, List.nil_append, String.empty_append,
      List.length_nil, Nat.zero_add]
  | inline =>
    simp only [Sql.Written.nothing, Sql.write, Sql.inline_eq r.dialect 1, List.append_nil,
      String.empty_append, List.length_nil, Nat.zero_add]

/-! ## Steps -/

/-- A step of a writer is to put SQL, whatever has been written before. -/
def Puts (step : Sql.Written → Sql.Written) (q : Sql) : Prop := ∀ w, step w = r.put q w

variable {r} {step next : Sql.Written → Sql.Written} {p q : Sql}

theorem Puts.andThen (h : r.Puts step p) (hnext : r.Puts next q) :
    r.Puts (fun w => next (step w)) (p ++ q) := fun w => by
  rw [put_append, ← h w, ← hnext]

theorem puts_push (s : String) : r.Puts (·.push s) [.text s] := fun _ => rfl

theorem puts_id : r.Puts (fun w => w) [] := fun _ => rfl

theorem puts_operand (v : Value) : r.Puts (·.fill "" (r.operand v) "") [.operand v] := fun _ => rfl

/-- Operands with text around them. -/
theorem Puts.fill {operands : List Value → String × List Value}
    (h : r.Puts (·.fill "" operands "") q) (before after : String) :
    r.Puts (·.fill before operands after) (.text before :: (q ++ [.text after])) := fun w =>
  (w.fill_eq before operands after).trans
    (((puts_push before).andThen (h.andThen (puts_push after))) w)

/-- Operands with text before them only. -/
theorem Puts.fillAfter {operands : List Value → String × List Value}
    (h : r.Puts (·.fill "" operands "") q) (before : String) :
    r.Puts (·.fill before operands "") (.text before :: q) := fun w =>
  (w.fill_empty before operands).trans (((puts_push before).andThen h) w)

/-! ## Operands -/

/-- A pattern is written as an operand, in both value modes. -/
theorem likePattern_eq (text : String) : r.likePattern text = r.operand (Comparison.pattern text) := by
  funext params
  cases hmode : r.mode <;> simp only [likePattern, operand, hmode, Comparison.pattern, Value.literal]

theorem operands_of_inline (hmode : r.mode = .inline) (items params : List Value) :
    r.operands items params = (Value.literals items, params) := by
  induction items with
  | nil => rfl
  | cons v rest ih => simp only [operands, operand, hmode, ih, Value.literals]

/-- A list is written as its operands are, with commas in between, in both value modes. -/
theorem operandList_eq (items params : List Value) : r.operandList items params =
    (String.intercalate ", " (r.operands items params).1, (r.operands items params).2) := by
  cases hmode : r.mode with
  | bound => simp only [operandList, hmode]
  | inline => simp only [operandList, hmode, operands_of_inline hmode, Value.listLiteral]

theorem puts_operandList (items : List Value) :
    r.Puts (·.fill "" (r.operandList items) "") (Sql.operandList items) := by
  intro w
  show w.fill "" (r.operandList items) "" = _
  induction items generalizing w with
  | nil => simp [Sql.Written.fill, operandList_eq, operands, Sql.operandList, put]
  | cons v rest ih =>
    cases rest with
    | nil => simp [Sql.Written.fill, operandList_eq, operands, Sql.operandList, put]
    | cons u rest =>
      -- The first operand, the comma and the rest are written one after the other.
      rw [Sql.operandList, put, put, ← ih]
      simp only [Sql.Written.fill, Sql.Written.push, operandList_eq, operands,
        String.intercalate_cons_cons, String.append_empty, String.append_assoc]

/-! ## Conditions -/

/-- **A comparison** is written as its SQL, in both value modes. -/
theorem puts_comparison (column : String) (c : Comparison) :
    r.Puts (r.comparison column c) (c.sql column) := by
  have hmembership (keyword : String) (items : List Value) :
      r.Puts (·.fill (column ++ keyword) (r.operandList items) ")")
        (.text (column ++ keyword) :: (Sql.operandList items ++ [.text ")"])) :=
    (puts_operandList items).fill _ _
  have hpattern (keyword text : String) :
      r.Puts (·.fill (column ++ keyword) (r.likePattern text) "")
        [.text (column ++ keyword), .operand (Comparison.pattern text)] := by
    rw [likePattern_eq]
    exact (puts_operand _).fillAfter _
  cases c with
  | equal v => cases v <;> first | exact puts_push _ | exact (puts_operand _).fillAfter _
  | notEqual v => cases v <;> first | exact puts_push _ | exact (puts_operand _).fillAfter _
  | greater v => exact (puts_operand v).fillAfter _
  | less v => exact (puts_operand v).fillAfter _
  | contains text => exact hpattern " LIKE " text
  | notContains text => exact hpattern " NOT LIKE " text
  | isIn items =>
    cases items with
    | nil => exact puts_push _
    | cons v rest => exact hmembership " IN (" (v :: rest)
  | notIn items =>
    cases items with
    | nil => exact puts_push _
    | cons v rest => exact hmembership " NOT IN (" (v :: rest)

/-- What is written between parentheses, where it is nested. -/
theorem Puts.enclosed (nested : Bool) (h : r.Puts step q) :
    r.Puts (fun w =>
      let inside := step (if nested then w.push "(" else w)
      if nested then inside.push ")" else inside) (Condition.enclosed nested q) := by
  cases nested with
  | false => exact h
  | true => exact (puts_push "(").andThen (h.andThen (puts_push ")"))

mutual

/-- **A condition** is written as its SQL: every member of a group, and every operand in it, at its place
and with its number. -/
theorem puts_condition (nested : Bool) : ∀ c : Condition, r.Puts (r.condition nested c) (c.sqlAt nested)
  | .compare column c => puts_comparison column c
  | .all [] => puts_push "1=1"
  | .any [] => puts_push "1=0"
  | .all [c] => puts_condition true c
  | .any [c] => puts_condition true c
  | .all (c :: d :: rest) =>
    ((puts_condition true c).andThen (puts_members " AND " (d :: rest))).enclosed nested
  | .any (c :: d :: rest) =>
    ((puts_condition true c).andThen (puts_members " OR " (d :: rest))).enclosed nested

theorem puts_members (keyword : String) :
    ∀ cs : List Condition, r.Puts (r.members keyword cs) (Condition.sqlAfter keyword cs)
  | [] => puts_id
  | c :: rest =>
    (puts_push keyword).andThen ((puts_condition true c).andThen (puts_members keyword rest))

end

/-- The clause for a condition is written as its SQL. -/
theorem puts_whereClause (c : Condition) : r.Puts (r.whereClause c) c.whereClause := by
  intro w
  rw [whereClause, Condition.whereClause]
  cases c.isEmpty with
  | true => rfl
  | false => exact ((puts_push " WHERE ").andThen (puts_condition false c)) w

end Writer

/-! ## Queries -/

/-- A query that is put behind nothing is written as options ask for it. -/
theorem Query.write_of_puts (q : Query) {o : CompileOptions} {step : Sql.Written → Sql.Written}
    (h : o.writer.Puts step q.sql) : (step .nothing).statement q.warnings = q.write o := by
  rw [h, Writer.put_nothing]
  rfl

/-- **A listing** is written as its query. -/
theorem Basis.statement_eq (s : Basis) (limit : Option Nat) (o : CompileOptions) :
    s.statement limit o.writer = (s.query limit).write o := by
  have hfront := (Writer.puts_push (r := o.writer) s.plan.listingHead).andThen
    (Writer.puts_whereClause s.condition)
  cases limit with
  | none => exact (s.query none).write_of_puts (hfront.andThen Writer.puts_id)
  | some n => exact (s.query (some n)).write_of_puts (hfront.andThen (Writer.puts_push _))

namespace Stage

variable (s : Stage) (o : CompileOptions)

/-- The clause for the qualified parents is written as its SQL. -/
theorem puts_qualified : ∃ step, o.writer.Puts step s.qualified ∧
    s.writeQualified o.writer = step .nothing :=
  ⟨_, (Writer.puts_push s.qualifiedHead).andThen
    ((Writer.puts_whereClause s.parentCondition).andThen (Writer.puts_push ")")), rfl⟩

/-- **Counts** are written as their query. -/
theorem countsStatement_eq : s.countsStatement o.writer = s.counts.write o := by
  obtain ⟨step, hstep, hqualified⟩ := s.puts_qualified o
  have hmembers := (Writer.puts_push (r := o.writer) (s.belonging s.parts.child)).andThen
    (Writer.puts_whereClause s.childCondition)
  rw [countsStatement, hqualified]
  exact s.counts.write_of_puts (hstep.andThen ((Writer.puts_push s.countsHead).andThen
    (hmembers.andThen (Writer.puts_push ") AS people_count"))))

/-- **A preview** is written as its query, with a condition of its own or without one. -/
theorem previewStatement_eq (p : Placement) (own : Option Condition) (limit : Nat) :
    s.previewStatement o.writer p own limit =
      (s.preview p (.text (s.belonging p) :: own.elim [] Condition.whereClause) limit).write o := by
  obtain ⟨step, hstep, hqualified⟩ := s.puts_qualified o
  have hlimit : o.writer.Puts (·.push (" LIMIT " ++ toString limit)) _ := Writer.puts_push _
  have hbelonging : o.writer.Puts (·.push (s.belonging p)) _ := Writer.puts_push _
  unfold previewStatement
  rw [hqualified]
  cases own with
  | none =>
    exact (s.preview p [.text (s.belonging p)] limit).write_of_puts
      (hstep.andThen ((Writer.puts_push p.previewHead).andThen (hbelonging.andThen hlimit)))
  | some c =>
    have hrows := hbelonging.andThen (Writer.puts_whereClause c)
    exact (s.preview p (.text (s.belonging p) :: c.whereClause) limit).write_of_puts
      (hstep.andThen ((Writer.puts_push p.previewHead).andThen (hrows.andThen hlimit)))

end Stage

namespace Audience

variable (a : Audience) (fs : FilterSet) (limit : Option Nat) (o : CompileOptions)

/-- **The listing as it is written** is its query as options ask for it. -/
theorem listingStatement_eq :
    a.listingStatement fs limit o = (a.listing o.compiler fs limit).map (Query.write o) := by
  rw [listingStatement, listing]
  cases a.basis o.compiler fs with
  | error e => rfl
  | ok s => exact congrArg Except.ok (s.statement_eq limit o)

/-- **The counts as they are written** are their query as options ask for it. -/
theorem countsStatement_of_stage :
    a.countsStatement fs o = (a.stage o.compiler fs).map fun s => s.counts.write o := by
  simp only [countsStatement, Stage.countsStatement_eq]

theorem bothPreviews_of_stage : a.bothPreviews fs limit o = (a.stage o.compiler fs).map fun s =>
    { company := (s.companyPreview (o.compiler.previewRows limit)).write o
      contact := (s.contactPreview (o.compiler.previewRows limit)).write o
      limit := o.compiler.previewRows limit } := by
  rw [bothPreviews]
  simp only [Stage.previewStatement_eq]
  cases a.stage o.compiler fs <;> rfl

/-- **The company side of a preview as it is written** is its query as options ask for it. -/
theorem companyStatement_of_stage : a.companyStatement fs limit o =
    (a.stage o.compiler fs).map fun s =>
      (s.companyPreview (o.compiler.previewRows limit)).write o := by
  rw [companyStatement, bothPreviews_of_stage]
  cases a.stage o.compiler fs <;> rfl

/-- **The contact side of a preview as it is written** is its query as options ask for it. -/
theorem contactStatement_of_stage : a.contactStatement fs limit o =
    (a.stage o.compiler fs).map fun s =>
      (s.contactPreview (o.compiler.previewRows limit)).write o := by
  rw [contactStatement, bothPreviews_of_stage]
  cases a.stage o.compiler fs <;> rfl

end Audience

end Targeting
