import Targeting.Query.Basic

/-!
# One walk for both ways of writing

SQL is written with placeholders or with literals by the same walk over its pieces; only the mark that
is put in the place of an operand differs. So the text is cut into segments that depend on neither.

* `Sql.textWith`: the text with any marks; `Sql.bound_eq`, `Sql.inline_eq`: the two ways of writing;
* `Sql.textWith_append`: the text of a part, with its operands numbered on;
* `weave`, `Sql.segments`: segments with marks in between, and the segments of SQL;
* **`Sql.write_eq_weave`**: both ways put their marks between the same segments.
-/

namespace Targeting

/-- Segments with marks in between. -/
def weave : List String → List String → String
  | [], _ => ""
  | s :: _, [] => s
  | s :: ss, m :: ms => s ++ m ++ weave ss ms

namespace Sql

/-! ## Text with marks -/

/-- The text with `w k v` for the operand `v` with number `k`, the first of them with number `i`. -/
def textWith (w : Nat → Value → String) (i : Nat) : Sql → String
  | [] => ""
  | .text s :: rest => s ++ textWith w i rest
  | .operand v :: rest => w i v ++ textWith w (i + 1) rest

/-- The marks of operands, the first of them with number `i`. -/
def marks (w : Nat → Value → String) (i : Nat) : List Value → List String
  | [] => []
  | v :: rest => w i v :: marks w (i + 1) rest

/-- The mark of an operand for a dialect in a value mode. -/
def mark (d : Dialect) : ValueMode → Nat → Value → String
  | .bound, i, _ => d.placeholder i
  | .inline, _, v => v.literal

theorem bound_eq (d : Dialect) (i : Nat) (q : Sql) : bound d i q = textWith (mark d .bound) i q := by
  induction q generalizing i with
  | nil => rfl
  | cons p rest ih => cases p <;> simp only [bound, textWith, mark, ih]

theorem inline_eq (d : Dialect) (i : Nat) (q : Sql) : inline q = textWith (mark d .inline) i q := by
  induction q generalizing i with
  | nil => rfl
  | cons p rest ih =>
    cases p with
    | text s => rw [inline, textWith, ih i]
    | operand v => rw [inline, textWith, mark, ih (i + 1)]

/-- SQL as it is sent, by the one walk. -/
theorem write_text (d : Dialect) (mode : ValueMode) (q : Sql) :
    (q.write d mode).text = textWith (mark d mode) 1 q := by
  cases mode
  · exact bound_eq d 1 q
  · exact inline_eq d 1 q

@[simp]
theorem operands_append (p q : Sql) : operands (p ++ q) = operands p ++ operands q := by
  induction p with
  | nil => rfl
  | cons piece rest ih => cases piece <;> simp only [List.cons_append, operands, ih]

/-- **Operands are numbered on from one part to the next.** -/
theorem textWith_append (w : Nat → Value → String) (i : Nat) (p q : Sql) :
    textWith w i (p ++ q) = textWith w i p ++ textWith w (i + p.operands.length) q := by
  induction p generalizing i with
  | nil => simp only [List.nil_append, textWith, operands, List.length_nil, Nat.add_zero,
      String.empty_append]
  | cons piece rest ih =>
    cases piece with
    | text s => simp only [List.cons_append, textWith, operands, ih, String.append_assoc]
    | operand v =>
      simp only [List.cons_append, textWith, operands, ih, String.append_assoc, List.length_cons]
      rw [Nat.add_right_comm, Nat.add_assoc]

/-! ## Segments -/

/-- The text before, between and after the operands. -/
def segments : Sql → List String
  | [] => [""]
  | .text s :: rest =>
    match segments rest with
    | [] => [s]
    | t :: ts => (s ++ t) :: ts
  | .operand _ :: rest => "" :: segments rest

theorem length_segments (q : Sql) : (segments q).length = q.operands.length + 1 := by
  induction q with
  | nil => rfl
  | cons piece rest ih =>
    cases piece with
    | text s =>
      cases hs : segments rest with
      | nil => rw [hs] at ih; exact absurd ih (by simp)
      | cons t ts => rw [hs] at ih; simpa only [segments, hs, operands, List.length_cons] using ih
    | operand v => simp only [segments, operands, List.length_cons, ih]

theorem weave_cons_append (s t : String) (ts ms : List String) :
    weave ((s ++ t) :: ts) ms = s ++ weave (t :: ts) ms := by
  cases ms with
  | nil => rfl
  | cons m ms => simp only [weave, String.append_assoc]

theorem textWith_eq_weave (w : Nat → Value → String) (i : Nat) (q : Sql) :
    textWith w i q = weave (segments q) (marks w i q.operands) := by
  induction q generalizing i with
  | nil => rfl
  | cons piece rest ih =>
    cases piece with
    | text s =>
      cases hs : segments rest with
      | nil => exact absurd (length_segments rest) (by simp [hs])
      | cons t ts =>
        simp only [textWith, segments, hs, operands]
        rw [weave_cons_append, ih, hs]
    | operand v => simp only [textWith, segments, operands, marks, weave, ih, String.empty_append]

/-! ## The two ways of writing -/

theorem marks_bound (d : Dialect) (i : Nat) (vs : List Value) :
    marks (mark d .bound) i vs = (List.range' i vs.length).map d.placeholder := by
  induction vs generalizing i with
  | nil => rfl
  | cons v rest ih => rw [marks, ih, List.length_cons, List.range'_succ, List.map_cons, mark]

theorem marks_inline (d : Dialect) (i : Nat) (vs : List Value) :
    marks (mark d .inline) i vs = vs.map Value.literal := by
  induction vs generalizing i with
  | nil => rfl
  | cons v rest ih => rw [marks, ih, List.map_cons, mark]

/-- **Both ways of writing put their marks between the same segments.** -/
theorem write_eq_weave (d : Dialect) (q : Sql) :
    q.write d .bound =
        ⟨weave q.segments ((List.range' 1 q.operands.length).map d.placeholder), q.operands⟩ ∧
      q.write d .inline = ⟨weave q.segments (q.operands.map Value.literal), []⟩ := by
  constructor
  · rw [write, bound_eq, textWith_eq_weave, marks_bound]
  · rw [write, inline_eq d 1, textWith_eq_weave, marks_inline]

end Sql

end Targeting
