import Targeting.Audience.Basic
import Targeting.Error
import Targeting.Query.Warning
import Targeting.Settings.Basic

/-!
# Joins

A listing selects from the root of an audience and from the objects joined to it. The flat strategy
joins every object by the first relationship that mentions it, and leaves an object out if there is
none. The graph strategy follows the relationships from the root, breadth first, and wants to reach
every object.

* `JoinPlan`, `JoinPlan.objects`, `JoinPlan.includes`, `JoinPlan.clause`;
* `JoinPlan.flat`, `JoinPlan.graph`, `JoinPlan.build`.
-/

namespace Targeting

/-- An object joined by a relationship. -/
structure Join where
  target : Placement
  relationship : Relationship
  deriving DecidableEq

/-- What a listing selects from. -/
structure JoinPlan where
  root : Placement
  joins : List Join
  leftOut : List Placement
  deriving DecidableEq

namespace Join

/-- The clause of a join. -/
def clause (j : Join) : String :=
  " " ++ j.relationship.kind.keyword ++ " " ++ j.target.object.table ++ " " ++ j.target.label ++
    " ON " ++ j.relationship.condition

end Join

namespace JoinPlan

/-- The root and the joined objects in order. -/
def objects (plan : JoinPlan) : List Placement := plan.root :: plan.joins.map Join.target

/-- An alias is selected from. -/
def includes (plan : JoinPlan) (label : String) : Bool :=
  plan.objects.any (·.label = label)

/-- The clause that says what is selected from. -/
def clause (plan : JoinPlan) : String :=
  "FROM " ++ plan.root.object.table ++ " " ++ plan.root.label ++
    String.join (plan.joins.map Join.clause)

/-- A warning for each object that is left out. -/
def warnings (plan : JoinPlan) : List Warning :=
  plan.leftOut.map fun p => .leftOut p.object.name p.label

/-! ## Flat -/

/-- The first relationship that mentions an object. -/
def relationFor? (rs : List Relationship) (p : Placement) : Option Relationship :=
  rs.find? fun r => r.mentions p.label

/-- Every object after the root is joined by the first relationship that mentions it. -/
def flatFrom (root : Placement) (others : List Placement) (rs : List Relationship) : JoinPlan where
  root := root
  joins := others.filterMap fun p => (relationFor? rs p).map (Join.mk p)
  leftOut := others.filter fun p => (relationFor? rs p).isNone

/-! ## Graph -/

/-- The first object under each alias. -/
def firsts : List Placement → List Placement
  | [] => []
  | p :: rest => p :: (firsts rest).filter fun q => q.label ≠ p.label

/-- The pending objects that a relationship mentions. -/
def reached (r : Relationship) (pending : List Placement) : List Placement :=
  firsts (pending.filter fun p => r.mentions p.label)

/-- The pending objects that a relationship does not mention. -/
def unreached (r : Relationship) (pending : List Placement) : List Placement :=
  pending.filter fun p => !r.mentions p.label

/-- The joins from an object to pending ones, and the objects that are pending after them. -/
def joinsFrom (label : String) : List Relationship → List Placement → List Join × List Placement
  | [], pending => ([], pending)
  | r :: rs, pending =>
    if r.mentions label then
      let (joins, rest) := joinsFrom label rs (unreached r pending)
      ((reached r pending).map (Join.mk · r) ++ joins, rest)
    else joinsFrom label rs pending

theorem length_firsts_le (ps : List Placement) : (firsts ps).length ≤ ps.length := by
  induction ps with
  | nil => exact Nat.le_refl _
  | cons p rest ih =>
    have := List.length_filter_le (fun q => decide (q.label ≠ p.label)) (firsts rest)
    simp only [firsts, List.length_cons]
    omega

theorem length_reached_add_unreached (r : Relationship) (ps : List Placement) :
    (reached r ps).length + (unreached r ps).length ≤ ps.length := by
  have hsum : (ps.filter fun p => r.mentions p.label).length +
      (ps.filter fun p => !r.mentions p.label).length = ps.length := by
    induction ps with
    | nil => rfl
    | cons p rest ih => cases hp : r.mentions p.label <;> grind
  have h := length_firsts_le (ps.filter fun p => r.mentions p.label)
  simp only [reached, unreached]
  omega

/-- No object is both joined and still pending. -/
theorem length_joinsFrom (label : String) (rs : List Relationship) (ps : List Placement) :
    (joinsFrom label rs ps).1.length + (joinsFrom label rs ps).2.length ≤ ps.length := by
  induction rs generalizing ps with
  | nil => simp [joinsFrom]
  | cons r rs ih =>
    simp only [joinsFrom]
    split
    · have h := ih (unreached r ps)
      have hr := length_reached_add_unreached r ps
      simp only [List.length_append, List.length_map]
      omega
    · exact ih ps

/-- The joins from the objects of a queue on, and the objects that no join reaches. -/
def walk (rs : List Relationship) (queue pending : List Placement) :
    List Join × List Placement :=
  match queue with
  | [] => ([], pending)
  | p :: queue =>
    let step := joinsFrom p.label rs pending
    let (joins, rest) := walk rs (queue ++ step.1.map Join.target) step.2
    (step.1 ++ joins, rest)
termination_by queue.length + pending.length
decreasing_by
  have := length_joinsFrom p.label rs pending
  simp only [List.length_append, List.length_map, List.length_cons]
  omega

/-- The relationships are followed from the root, breadth first. -/
def graphFrom (root : Placement) (all : List Placement) (rs : List Relationship) :
    Except Error JoinPlan :=
  let (joins, rest) := walk rs [root] (all.filter fun p => p.label ≠ root.label)
  match rest with
  | [] => .ok { root, joins, leftOut := [] }
  | p :: _ => .error (.configuration (.notConnected p.object.name p.label root.label))

/-- The flat plan of an audience. -/
def flat (a : Audience) : Except Error JoinPlan :=
  match a.objects with
  | [] => .error (.configuration .noObjects)
  | root :: others => .ok (flatFrom root others a.relationships)

/-- The plan of an audience by its relationships. -/
def graph (a : Audience) : Except Error JoinPlan :=
  match a.objects with
  | [] => .error (.configuration .noObjects)
  | root :: others => graphFrom root (root :: others) a.relationships

/-- The plan of an audience by a strategy. -/
def build (a : Audience) : JoinStrategy → Except Error JoinPlan
  | .flat => flat a
  | .graph => graph a

end JoinPlan

end Targeting
