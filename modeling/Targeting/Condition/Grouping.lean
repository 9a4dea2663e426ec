import Targeting.Condition.Basic

/-!
# Grouping

A list of conditions, each with a connector to the next, is read in one of two ways. By adjacency,
neighbours with the same connector form a group and all groups have to hold. By precedence, `AND` binds
tighter than `OR`, as in SQL.

* `Tied`: a condition with its connector;
* `runs`, `Condition.byAdjacency`;
* `segments`, `Condition.byPrecedence`;
* `Condition.grouped`: the grouping that settings ask for.
-/

namespace Targeting

/-- A condition with the connector that follows it. -/
abbrev Tied : Type := Condition × Connector

/-- The longest runs of neighbours with the same connector. -/
def runs : List Tied → List (Connector × List Condition)
  | [] => []
  | (c, k) :: rest =>
    match runs rest with
    | [] => [(k, [c])]
    | (l, cs) :: more => if k = l then (l, c :: cs) :: more else (k, [c]) :: (l, cs) :: more

/-- The parts of a list that end after each `OR`. -/
def segments : List Tied → List (List Condition)
  | [] => []
  | (c, .or) :: rest => [c] :: segments rest
  | (c, .and) :: rest =>
    match segments rest with
    | [] => [[c]]
    | cs :: more => (c :: cs) :: more

namespace Condition

/-- Conditions under one connector; a single one needs no group. -/
def group : Connector → List Condition → Condition
  | _, [c] => c
  | .and, cs => all cs
  | .or, cs => any cs

/-- The same condition as a group of conditions that hold together. -/
def asConjunction : Condition → Condition
  | all cs => all cs
  | c => all [c]

/-- All runs hold. -/
def byAdjacency (cs : List Tied) : Condition := all ((runs cs).map fun (k, run) => group k run)

/-- Some segment holds. -/
def byPrecedence (cs : List Tied) : Condition :=
  match (segments cs).map (group .and) with
  | [] => all []
  | [c] => c.asConjunction
  | terms => any terms

/-- The grouping that settings ask for. -/
def grouped : Grouping → List Tied → Condition
  | .adjacency => byAdjacency
  | .precedence => byPrecedence

end Condition

end Targeting
