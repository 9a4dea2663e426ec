import Targeting.Proofs.Compilation
import Targeting.Proofs.Statements
import Targeting.Proofs.Token

/-!
# Spaces around operands

In all SQL that is put together here an operand stands after a blank or an opening parenthesis and before
something that sets it off. So whatever is written in its place is cut off from the text around it.

* `Opens`, `SetsOff`: texts before and after an operand;
* `Sql.Spaced`: all operands stand apart; `Sql.Spaced.append`: parts put together;
* **`Condition.spaced_sqlAt`**, `Stage.spaced_counts`, `Stage.spaced_preview`: the SQL of queries.
-/

namespace Targeting

/-- A text ends with a blank or an opening parenthesis. -/
def Opens (s : String) : Prop := s.toList.getLast? = some ' ' ∨ s.toList.getLast? = some '('

instance : DecidablePred Opens := fun s =>
  inferInstanceAs (Decidable (s.toList.getLast? = some ' ' ∨ s.toList.getLast? = some '('))

/-- A text sets off what stands before it. -/
def SetsOff (s : String) : Prop := s.toList ≠ [] ∧ Apart s.toList

instance : DecidablePred SetsOff := fun s =>
  inferInstanceAs (Decidable (s.toList ≠ [] ∧ Apart s.toList))

theorem Opens.append {t : String} (h : Opens t) (s : String) : Opens (s ++ t) := by
  unfold Opens
  rw [String.toList_append, List.getLast?_append]
  rcases h with h | h
  · left
    rw [h, Option.some_or]
  · right
    rw [h, Option.some_or]

theorem SetsOff.append {s : String} (h : SetsOff s) (t : String) : SetsOff (s ++ t) := by
  obtain ⟨c, cs, hs⟩ := List.exists_cons_of_ne_nil h.1
  have hapart : Apart (c :: cs) := hs ▸ h.2
  unfold SetsOff
  rw [String.toList_append, hs, List.cons_append]
  exact ⟨List.cons_ne_nil _ _, apart_cons_iff.mpr (apart_cons_iff.mp hapart)⟩

namespace Sql

/-- SQL starts with an operand. -/
def StartsOpen : Sql → Prop
  | .operand _ :: _ => True
  | _ => False

/-- SQL starts with what sets off an operand before it, or there is none. -/
def StartsApart : Sql → Prop
  | [] => True
  | .text s :: _ => SetsOff s
  | .operand _ :: _ => False

/-- Every operand stands after a text that opens and before one that sets it off. -/
def Spaced : Sql → Prop
  | [] => True
  | .text s :: rest => (StartsOpen rest → Opens s) ∧ Spaced rest
  | .operand _ :: rest => StartsApart rest ∧ Spaced rest

variable {p q : Sql} {s : String}

theorem spaced_text (s : String) : Spaced [.text s] := ⟨False.elim, trivial⟩

theorem spaced_operand (v : Value) : Spaced [.operand v] := ⟨trivial, trivial⟩

theorem startsApart_text (h : SetsOff s) : StartsApart (.text s :: q) := h

theorem Spaced.after (h : Spaced q) (hs : Opens s) : Spaced (.text s :: q) := ⟨fun _ => hs, h⟩

theorem not_startsOpen (h : StartsApart q) : ¬ StartsOpen q := by
  cases q with
  | nil => exact False.elim
  | cons piece rest =>
    cases piece with
    | text s => exact False.elim
    | operand v => exact fun _ => h

theorem StartsApart.append (hp : StartsApart p) (hq : StartsApart q) : StartsApart (p ++ q) := by
  cases p with
  | nil => exact hq
  | cons piece rest => cases piece <;> exact hp

/-- **What is spaced may stand before what sets it off.** -/
theorem Spaced.append (hp : Spaced p) (hq : Spaced q) (h : StartsApart q) : Spaced (p ++ q) := by
  induction p with
  | nil => exact hq
  | cons piece rest ih =>
    cases piece with
    | text s =>
      obtain ⟨hopens, hrest⟩ := hp
      refine ⟨fun hstarts => ?_, ih hrest⟩
      cases rest with
      | nil => exact absurd hstarts (not_startsOpen h)
      | cons piece rest => cases piece <;> exact hopens hstarts
    | operand v =>
      obtain ⟨hapart, hrest⟩ := hp
      exact ⟨hapart.append h, ih hrest⟩

theorem Spaced.behind (h : Spaced q) (hapart : StartsApart q) (s : String) : Spaced (.text s :: q) :=
  (spaced_text s).append h hapart

theorem spaced_operandList (vs : List Value) : Spaced (operandList vs) := by
  fun_induction operandList vs with
  | case1 => trivial
  | case2 v => exact spaced_operand v
  | case3 v w rest ih => exact ⟨startsApart_text (by decide), ih.after (by decide)⟩

end Sql

open Sql

/-! ## Conditions -/

theorem Comparison.spaced_sql (column : String) (c : Comparison) : (c.sql column).Spaced := by
  refine sql_shapes column c (fun s _ => spaced_text s) (fun s _ => spaced_text _) (fun s hs v => ?_)
    fun s hs vs _ => ?_
  · have hoperators : ∀ s ∈ [" = ", " != ", " > ", " < ", " LIKE ", " NOT LIKE "], Opens s := by decide
    exact (spaced_operand v).after ((hoperators s hs).append column)
  · have hmemberships : ∀ s ∈ [" IN (", " NOT IN ("], Opens s := by decide
    have hlist := (spaced_operandList vs).append (spaced_text ")") (startsApart_text (by decide))
    exact hlist.after ((hmemberships s hs).append column)

namespace Condition

theorem spaced_enclosed {q : Sql} (h : q.Spaced) (nested : Bool) : (enclosed nested q).Spaced := by
  cases nested with
  | false => exact h
  | true =>
    rw [enclosed, if_pos rfl]
    exact (h.append (spaced_text ")") (startsApart_text (by decide))).after (by decide)

theorem startsApart_sqlAfter {keyword : String} (hk : SetsOff keyword) (cs : List Condition) :
    StartsApart (sqlAfter keyword cs) := by
  cases cs with
  | nil => trivial
  | cons c rest => exact startsApart_text hk

theorem spaced_sqlAfter {keyword : String} (hk : SetsOff keyword ∧ Opens keyword)
    {cs : List Condition} (hs : ∀ c ∈ cs, (c.sqlAt true).Spaced) : (sqlAfter keyword cs).Spaced := by
  induction cs with
  | nil => trivial
  | cons c rest ih =>
    obtain ⟨hc, hrest⟩ := List.forall_mem_cons.mp hs
    exact (hc.append (ih hrest) (startsApart_sqlAfter hk.1 rest)).after hk.2

theorem spaced_joined {keyword : String} (hk : SetsOff keyword ∧ Opens keyword) {cs : List Condition}
    (hs : ∀ c ∈ cs, (c.sqlAt true).Spaced) : (joined keyword cs).Spaced := by
  cases cs with
  | nil => trivial
  | cons c rest =>
    obtain ⟨hc, hrest⟩ := List.forall_mem_cons.mp hs
    exact hc.append (spaced_sqlAfter hk hrest) (startsApart_sqlAfter hk.1 rest)

/-- **The operands of a condition stand apart.** -/
theorem spaced_sqlAt (c : Condition) (nested : Bool) : (c.sqlAt nested).Spaced := by
  induction c generalizing nested with
  | compare column c =>
    rw [sqlAt]
    exact c.spaced_sql column
  | all cs ih =>
    by_cases hnil : cs = []
    · subst hnil
      exact spaced_text _
    · rw [sqlAt_all hnil]
      exact spaced_enclosed (spaced_joined (by decide) fun c hc => ih c hc true) _
  | any cs ih =>
    by_cases hnil : cs = []
    · subst hnil
      exact spaced_text _
    · rw [sqlAt_any hnil]
      exact spaced_enclosed (spaced_joined (by decide) fun c hc => ih c hc true) _

theorem spaced_whereClause (c : Condition) : c.whereClause.Spaced := by
  unfold whereClause
  split
  · trivial
  · exact (c.spaced_sqlAt false).after (by decide)

theorem startsApart_whereClause (c : Condition) : StartsApart c.whereClause := by
  unfold whereClause
  split
  · trivial
  · exact startsApart_text (by decide)

end Condition

/-! ## Queries -/

namespace Stage

variable (s : Stage)

theorem spaced_qualified : s.qualified.Spaced := by
  have hclose : StartsApart [.text ")"] := startsApart_text (by decide)
  have hclause := s.parentCondition.spaced_whereClause.append (spaced_text ")") hclose
  exact hclause.behind (s.parentCondition.startsApart_whereClause.append hclose) _

theorem spaced_members : s.members.Spaced :=
  s.childCondition.spaced_whereClause.behind s.childCondition.startsApart_whereClause _

/-- **The operands of counts stand apart.** -/
theorem spaced_counts : s.counts.sql.Spaced := by
  have hmembers : Spaced (s.members ++ [.text ") AS people_count"]) :=
    s.spaced_members.append (spaced_text _) (startsApart_text (by decide))
  have hselect : SetsOff " SELECT (SELECT COUNT(DISTINCT " := by decide
  refine s.spaced_qualified.append (hmembers.after (Opens.append (by decide) _)) (startsApart_text ?_)
  exact (((((hselect.append _).append _).append _).append _).append _).append _

/-- **The operands of a preview stand apart.** -/
theorem spaced_preview (p : Placement) {rows : Sql} (hrows : rows.Spaced) (limit : Nat) :
    (s.preview p rows limit).sql.Spaced := by
  have hselect : SetsOff " SELECT " := by decide
  have hlimit : StartsApart [.text (" LIMIT " ++ toString limit)] :=
    startsApart_text (SetsOff.append (by decide) _)
  have hspace : Opens " " := by decide
  exact s.spaced_qualified.append ((hrows.append (spaced_text _) hlimit).after (hspace.append _))
    (startsApart_text ((hselect.append _).append _))

theorem spaced_companyPreview (limit : Nat) : (s.companyPreview limit).sql.Spaced :=
  s.spaced_preview s.parts.parent (spaced_text _) limit

theorem spaced_contactPreview (limit : Nat) : (s.contactPreview limit).sql.Spaced :=
  s.spaced_preview s.parts.child s.spaced_members limit

end Stage

end Targeting
