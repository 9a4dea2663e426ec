import Targeting.Proofs.Leaves

/-!
# Conditions that have to hold together

Several conditions are put together as one by taking the members of each "all of" out of it and leaving out
what has no members. An "all of" without members is true, so nothing depends on it. An "any of" without
members is false, and yet it is left out as well.

* `Condition.TrueUnder`: the truth of a condition, given that of its comparisons;
* `Condition.forall_mem_conjuncts_iff`: what holds if all members of a conjunction do;
* **`Condition.conjunction_true_iff`**: when several conditions as one are as true as all of them.
-/

namespace Targeting.Condition

/-! ## Truth -/

mutual

/-- The truth of a condition if `t` is that of a comparison on a column. -/
def TrueUnder (t : String × Comparison → Prop) : Condition → Prop
  | compare column c => t (column, c)
  | all cs => AllTrue t cs
  | any cs => AnyTrue t cs

/-- All of these conditions are true. -/
def AllTrue (t : String × Comparison → Prop) : List Condition → Prop
  | [] => True
  | c :: rest => c.TrueUnder t ∧ AllTrue t rest

/-- Some of these conditions is true. -/
def AnyTrue (t : String × Comparison → Prop) : List Condition → Prop
  | [] => False
  | c :: rest => c.TrueUnder t ∨ AnyTrue t rest

end

variable {t : String × Comparison → Prop}

theorem allTrue_iff {cs : List Condition} : AllTrue t cs ↔ ∀ c ∈ cs, c.TrueUnder t := by
  induction cs with
  | nil => simp [AllTrue]
  | cons c rest ih => simp [AllTrue, ih]

theorem anyTrue_iff {cs : List Condition} : AnyTrue t cs ↔ ∃ c ∈ cs, c.TrueUnder t := by
  induction cs with
  | nil => simp [AnyTrue]
  | cons c rest ih => simp [AnyTrue, ih]

@[simp]
theorem trueUnder_compare {column : String} {c : Comparison} :
    (compare column c).TrueUnder t ↔ t (column, c) := by
  rw [TrueUnder]

@[simp]
theorem trueUnder_all {cs : List Condition} : (all cs).TrueUnder t ↔ ∀ c ∈ cs, c.TrueUnder t := by
  rw [TrueUnder, allTrue_iff]

@[simp]
theorem trueUnder_any {cs : List Condition} : (any cs).TrueUnder t ↔ ∃ c ∈ cs, c.TrueUnder t := by
  rw [TrueUnder, anyTrue_iff]

/-! ## Conjunctions -/

/-- The members of a conjunction are all true if each condition is that has not been left out. An empty
"all of" may count as one of them: it is true. -/
theorem forall_mem_conjuncts_iff {cs : List Condition} :
    (∀ c ∈ conjuncts cs, c.TrueUnder t) ↔ ∀ c ∈ cs, c ≠ any [] → c.TrueUnder t := by
  fun_induction conjuncts cs with
  | case1 => simp
  | case2 ds rest ih => rw [List.forall_mem_append, ih, List.forall_mem_cons]; simp
  | case3 rest ih => simp [ih]
  | case4 c rest _ hne ih =>
    have hc : c ≠ any [] := hne
    simp [ih, hc]

/-- **Several conditions as one** have the comparisons of all of them in their order, and are true exactly if
each of them is that is no "any of" without members. So they are as true as all of them, unless there is
such an "any of" among them and everything else is true. -/
theorem conjunction_true_iff (cs : List Condition) :
    (conjunction cs).leaves = cs.flatMap leaves ∧
    ∀ t : String × Comparison → Prop,
      ((conjunction cs).TrueUnder t ↔ ∀ c ∈ cs, c ≠ any [] → c.TrueUnder t) ∧
      (((conjunction cs).TrueUnder t ↔ ∀ c ∈ cs, c.TrueUnder t) ↔
        (any [] ∈ cs → ∃ c ∈ cs, c ≠ any [] ∧ ¬c.TrueUnder t)) := by
  refine ⟨leaves_conjunction cs, fun t => ?_⟩
  have hothers : (conjunction cs).TrueUnder t ↔ ∀ c ∈ cs, c ≠ any [] → c.TrueUnder t := by
    rw [conjunction, trueUnder_all, forall_mem_conjuncts_iff]
  have hfalse : ¬(any []).TrueUnder t := by simp
  refine ⟨hothers, ?_⟩
  rw [hothers]
  constructor
  · -- The empty "any of" makes one side false, so something else has to make the other side false.
    intro hsame hmem
    by_cases hlost : ∃ c ∈ cs, c ≠ any [] ∧ ¬c.TrueUnder t
    · exact hlost
    · refine absurd (hsame.mp (fun c hc hne => ?_) (any []) hmem) hfalse
      by_cases htrue : c.TrueUnder t
      · exact htrue
      · exact absurd ⟨c, hc, hne, htrue⟩ hlost
  · refine fun hlost => ⟨fun htrue c hc => ?_, fun hall c hc _ => hall c hc⟩
    by_cases hempty : c = any []
    · obtain ⟨d, hd, hne, hfalse⟩ := hlost (hempty ▸ hc)
      exact absurd (htrue d hd hne) hfalse
    · exact htrue c hc hempty

/-- A comparison beside a condition that nothing meets. -/
def withImpossible : List Condition :=
  [any [], compare "c.country" (.equal (.string "USA"))]

/-- Put together, they are true where the comparison is: nothing is left of the other condition, which by
itself is written as false. -/
theorem withImpossible_not_conjunction :
    ¬∀ t, (conjunction withImpossible).TrueUnder t ↔ ∀ c ∈ withImpossible, c.TrueUnder t := by
  intro h
  have hall := (h fun _ => True).mp (by simp [withImpossible, conjunction, conjuncts])
  exact absurd (hall (any []) List.mem_cons_self) (by simp)

example : (any []).sql = [.text "1=0"] ∧
    (conjunction withImpossible).sql = [.text "c.country = ", .operand (.string "USA")] := ⟨rfl, rfl⟩

end Targeting.Condition
