import Mathlib.Data.List.SplitBy
import Targeting.Proofs.Meaning

/-!
# Cutting lists of conditions

Both ways of grouping cut the list of conditions where the connectors say so. What conditions are given
in order, such as their texts or their truth, each taking up some numbers, is cut in the same places.

* `splitBy_cons_of_cut`, `splitBy_cons_of_tied`: cutting a list from the front;
* `numbered`, `numberedParts`: what conditions are given, for a list and for its parts;
* **`splitBy_numbered`**, **`numbered_splitBy`**: cutting goes by the connectors only;
* **`runs_eq_splitBy`**, **`segments_eq_splitBy`**: runs and segments are cut so;
* `Condition.textWith_joined`, `Condition.allHold_eq_numbered`: texts and truth, numbered;
* `Condition.holds_group`, `Condition.truthAt_group`: the truth of a group.
-/

namespace Targeting

/-! ## Cutting lists -/

section

variable {α : Type} {r : α → α → Bool} {a b : α} {l rest : List α} {more : List (List α)}

theorem splitBy_cons (r : α → α → Bool) (a : α) (l : List α) :
    ∃ rest more, (a :: l).splitBy r = (a :: rest) :: more := by
  have hne : (a :: l).splitBy r ≠ [] := List.splitBy_ne_nil.mpr (List.cons_ne_nil a l)
  obtain ⟨part, more, hsplit⟩ := List.exists_cons_of_ne_nil hne
  have hpart : part ∈ (a :: l).splitBy r := hsplit ▸ List.mem_cons_self
  obtain ⟨b, rest, rfl⟩ := List.exists_cons_of_ne_nil (List.ne_nil_of_mem_splitBy hpart)
  have hflat := List.flatten_splitBy r (a :: l)
  rw [hsplit, List.flatten_cons, List.cons_append, List.cons.injEq] at hflat
  exact ⟨rest, more, by rw [hsplit, hflat.1]⟩

/-- A member that is cut off from the next one is a part by itself. -/
theorem splitBy_cons_of_cut (h : r a b = false) :
    (a :: b :: l).splitBy r = [a] :: (b :: l).splitBy r := by
  have happend : ([a] ++ b :: l).splitBy r = [a].splitBy r ++ (b :: l).splitBy r := by
    refine List.splitBy_append_cons l fun x hx => ?_
    rw [List.getLast?_singleton, Option.mem_some_iff] at hx
    rwa [← hx]
  exact happend

/-- A member that is not cut off from the next one starts its part. -/
theorem splitBy_cons_of_tied (h : r a b = true) (hsplit : (b :: l).splitBy r = (b :: rest) :: more) :
    (a :: b :: l).splitBy r = (a :: b :: rest) :: more := by
  obtain ⟨hflat, hnil, hparts, hcuts⟩ := List.splitBy_eq_iff.mp hsplit
  obtain ⟨hpart, hparts⟩ := List.forall_mem_cons.mp hparts
  rw [List.isChain_cons] at hcuts
  refine List.splitBy_eq_iff.mpr ⟨congrArg (a :: ·) hflat, ?_, ?_, ?_⟩
  · intro hmem
    rcases List.mem_cons.mp hmem with hmem | hmem
    · cases hmem
    · exact hnil (List.mem_cons_of_mem _ hmem)
  · exact List.forall_mem_cons.mpr ⟨List.isChain_cons_cons.mpr ⟨h, hpart⟩, hparts⟩
  · refine List.isChain_cons.mpr ⟨fun part hmem => ?_, hcuts.2⟩
    obtain ⟨_, hne, hcut⟩ := hcuts.1 part hmem
    exact ⟨List.cons_ne_nil _ _, hne, by rwa [List.getLast_cons_cons]⟩

end

/-- Two neighbours are tied if a relation holds between their connectors. -/
def tiedBy {α : Type} (rel : Connector → Connector → Bool) (a b : α × Connector) : Bool :=
  rel a.2 b.2

/-! ## Numbering through -/

section

variable {β : Type} (f : Nat → Condition → β) (size : Condition → Nat)

/-- What conditions are given in order, each of which takes up some numbers, the first from `i` on. -/
def numbered (i : Nat) : List Condition → List β
  | [] => []
  | c :: rest => f i c :: numbered (i + size c) rest

/-- The same, with connectors. -/
def numberedTied (i : Nat) (cs : List Tied) : List (β × Connector) :=
  (numbered f size i (cs.map Prod.fst)).zip (cs.map Prod.snd)

/-- The numbers that conditions take up. -/
def total : List Tied → Nat
  | [] => 0
  | t :: cs => size t.1 + total cs

/-- The same for the parts of a list, numbered through all of them. -/
def numberedParts (i : Nat) : List (List Tied) → List (List (β × Connector))
  | [] => []
  | part :: more => numberedTied f size i part :: numberedParts (i + total size part) more

theorem numberedTied_cons (i : Nat) (t : Tied) (cs : List Tied) : numberedTied f size i (t :: cs) =
    (f i t.1, t.2) :: numberedTied f size (i + size t.1) cs := rfl

theorem total_cons (t : Tied) (cs : List Tied) :
    total size (t :: cs) = size t.1 + total size cs := rfl

theorem map_fst_numberedTied (i : Nat) (cs : List Tied) :
    (numberedTied f size i cs).map Prod.fst = numbered f size i (cs.map Prod.fst) := by
  induction cs generalizing i with
  | nil => rfl
  | cons t cs ih => rw [numberedTied_cons, List.map_cons, ih, List.map_cons, numbered]

/-- **Cutting goes by the connectors only**, whatever the conditions are given. -/
theorem splitBy_numbered (rel : Connector → Connector → Bool) (i : Nat) (cs : List Tied) :
    (numberedTied f size i cs).splitBy (tiedBy rel) =
      numberedParts f size i (cs.splitBy (tiedBy rel)) := by
  match cs with
  | [] => rfl
  | [t] => rfl
  | (c, k) :: (d, l) :: cs =>
    have ih := splitBy_numbered rel (i + size c) ((d, l) :: cs)
    rw [numberedTied_cons] at ih
    rw [numberedTied_cons, numberedTied_cons]
    -- Whether the first two are cut apart is decided by their connectors, on both sides alike.
    cases hrel : rel k l with
    | false =>
      have hcut : ∀ {γ : Type} {x y : γ}, tiedBy rel (x, k) (y, l) = false := hrel
      rw [splitBy_cons_of_cut hcut, splitBy_cons_of_cut hcut, ih]
      rfl
    | true =>
      have htied : ∀ {γ : Type} {x y : γ}, tiedBy rel (x, k) (y, l) = true := hrel
      obtain ⟨rest, more, hsplit⟩ := splitBy_cons (tiedBy rel) (d, l) cs
      rw [hsplit, numberedParts, numberedTied_cons] at ih
      rw [splitBy_cons_of_tied htied hsplit, splitBy_cons_of_tied htied ih, numberedParts,
        total_cons size (c, k), ← Nat.add_assoc]
      rfl

theorem numbered_groups {grouping : List Tied → Condition} {g : List (β × Connector) → β}
    (hg : ∀ part, part ≠ [] → ∀ i, f i (grouping part) = g (numberedTied f size i part))
    (hsize : ∀ part, part ≠ [] → size (grouping part) = total size part) {parts : List (List Tied)}
    (hparts : ∀ part ∈ parts, part ≠ []) (i : Nat) :
    numbered f size i (parts.map grouping) = (numberedParts f size i parts).map g := by
  induction parts generalizing i with
  | nil => rfl
  | cons part more ih =>
    obtain ⟨hpart, hmore⟩ := List.forall_mem_cons.mp hparts
    rw [List.map_cons, numbered, numberedParts, List.map_cons, hg part hpart, hsize part hpart,
      ih hmore]

/-- **The groups of the parts** are given what the parts are given: it makes no difference whether the
conditions are cut into parts first, or what they are given. -/
theorem numbered_splitBy {grouping : List Tied → Condition} {g : List (β × Connector) → β}
    (rel : Connector → Connector → Bool)
    (hg : ∀ part, part ≠ [] → ∀ i, f i (grouping part) = g (numberedTied f size i part))
    (hsize : ∀ part, part ≠ [] → size (grouping part) = total size part) (i : Nat) (cs : List Tied) :
    numbered f size i ((cs.splitBy (tiedBy rel)).map grouping) =
      ((numberedTied f size i cs).splitBy (tiedBy rel)).map g := by
  have hparts : ∀ part ∈ cs.splitBy (tiedBy rel), part ≠ [] := fun part => List.ne_nil_of_mem_splitBy
  rw [numbered_groups f size hg hsize hparts, splitBy_numbered]

end

/-! ## Runs and segments -/

/-- Neighbours with the same connector belong together. -/
def sameConnector {α : Type} : α × Connector → α × Connector → Bool := tiedBy fun k l => k = l

/-- Neighbours belong together unless there is an `OR` between them. -/
def joinedByAnd {α : Type} : α × Connector → α × Connector → Bool := tiedBy fun k _ => k = .and

/-- The connector of a run, which all of its members have. -/
def connectorOf {α : Type} : List (α × Connector) → Connector
  | [] => .and
  | (_, k) :: _ => k

/-- **Runs are the longest parts with one connector.** -/
theorem runs_eq_splitBy (cs : List Tied) :
    runs cs = (cs.splitBy sameConnector).map fun run => (connectorOf run, run.map Prod.fst) := by
  match cs with
  | [] => rfl
  | [t] => rfl
  | (c, k) :: (d, l) :: cs =>
    have ih := runs_eq_splitBy ((d, l) :: cs)
    obtain ⟨rest, more, hsplit⟩ := splitBy_cons sameConnector (d, l) cs
    rw [hsplit] at ih
    rw [runs, ih]
    by_cases h : k = l
    · have htied : sameConnector (c, k) (d, l) = true := decide_eq_true h
      rw [splitBy_cons_of_tied htied hsplit, h]
      simp only [List.map_cons, connectorOf, if_true]
    · have hcut : sameConnector (c, k) (d, l) = false := decide_eq_false h
      rw [splitBy_cons_of_cut hcut, hsplit]
      simp only [List.map_cons, connectorOf, if_neg h, List.map_nil]

/-- **Segments are the parts after each `OR`.** -/
theorem segments_eq_splitBy (cs : List Tied) :
    segments cs = (cs.splitBy joinedByAnd).map fun segment => segment.map Prod.fst := by
  match cs with
  | [] => rfl
  | [(c, .and)] => rfl
  | [(c, .or)] => rfl
  | (c, .and) :: t :: cs =>
    have ih := segments_eq_splitBy (t :: cs)
    obtain ⟨rest, more, hsplit⟩ := splitBy_cons joinedByAnd t cs
    rw [hsplit] at ih
    rw [segments, ih, splitBy_cons_of_tied rfl hsplit]
    rfl
  | (c, .or) :: t :: cs =>
    have ih := segments_eq_splitBy (t :: cs)
    rw [segments, ih, splitBy_cons_of_cut rfl]
    rfl

/-! ## Texts and truth, numbered -/

/-- The truth of the members of a group under a connector. -/
def truthUnder (k : Connector) (members : List (Bool × Connector)) : Bool :=
  match k with
  | .and => members.all Prod.fst
  | .or => members.any Prod.fst

namespace Condition

/-- The text of a condition inside a group. -/
def textAt (w : Nat → Value → String) (i : Nat) (c : Condition) : String := (c.sqlAt true).textWith w i

/-- The number of operands of a condition. -/
def operandCount (c : Condition) : Nat := (c.sqlAt true).operands.length

/-- The truth of a condition. -/
def truthAt (v : Nat → Bool) (i : Nat) (c : Condition) : Bool := c.holds v i

/-- The number of open comparisons of a condition. -/
def questionCount (c : Condition) : Nat := c.questions.length

theorem textWith_joined (w : Nat → Value → String) (keyword : String) (i : Nat) (cs : List Condition) :
    (joined keyword cs).textWith w i = keyword.intercalate (numbered (textAt w) operandCount i cs) := by
  match cs with
  | [] => rfl
  | [c] =>
    rw [joined, sqlAfter, List.append_nil, numbered, numbered, String.intercalate_singleton]
    rfl
  | c :: d :: rest =>
    have ih := textWith_joined w keyword (i + c.operandCount) (d :: rest)
    have htext : (joined keyword (c :: d :: rest)).textWith w i = textAt w i c ++
        (keyword ++ (joined keyword (d :: rest)).textWith w (i + c.operandCount)) :=
      Sql.textWith_append w i _ _
    rw [htext, ih, numbered, numbered, numbered, String.intercalate_cons_cons, String.append_assoc]

theorem Full.textWith_whereClause {c : Condition} (h : c.Full) (w : Nat → Value → String) (i : Nat) :
    c.whereClause.textWith w i = " WHERE " ++ c.sql.textWith w i := by
  rw [whereClause, h.isEmpty, if_neg Bool.false_ne_true, Sql.textWith]

theorem allHold_eq_numbered (v : Nat → Bool) (i : Nat) (cs : List Condition) :
    allHold v i cs = (numbered (truthAt v) questionCount i cs).all id := by
  induction cs generalizing i with
  | nil => rw [allHold, numbered, List.all_nil]
  | cons c rest ih =>
    rw [allHold, ih, numbered, List.all_cons]
    rfl

theorem anyHolds_eq_numbered (v : Nat → Bool) (i : Nat) (cs : List Condition) :
    anyHolds v i cs = (numbered (truthAt v) questionCount i cs).any id := by
  induction cs generalizing i with
  | nil => rw [anyHolds, numbered, List.any_nil]
  | cons c rest ih =>
    rw [anyHolds, ih, numbered, List.any_cons]
    rfl

/-! ## Groups -/

theorem operandCount_group (k : Connector) (cs : List Tied) :
    (group k (cs.map Prod.fst)).operandCount = total operandCount cs := by
  have hcount : ∀ c : Condition, c.operandCount =
      (c.leaves.flatMap fun l => (leafSql l).operands).length := fun c =>
    congrArg List.length (c.operands_sqlAt true)
  induction cs with
  | nil => cases k <;> rfl
  | cons t cs ih =>
    rw [hcount, leaves_group, List.flatMap_assoc] at ih ⊢
    rw [List.map_cons, List.flatMap_cons, List.length_append, ih, total_cons, hcount]

theorem questionCount_group (k : Connector) (cs : List Tied) :
    (group k (cs.map Prod.fst)).questionCount = total questionCount cs := by
  induction cs with
  | nil => cases k <;> rfl
  | cons t cs ih =>
    rw [questionCount, questions, leaves_group] at ih ⊢
    rw [List.map_cons, List.flatMap_cons, List.filter_append, List.length_append, ih, total_cons]
    rfl

theorem holds_group (k : Connector) (cs : List Condition) (v : Nat → Bool) (i : Nat) :
    (group k cs).holds v i = groupHolds k v i cs := by
  fun_cases group k cs with
  | case1 c => rw [groupHolds_cons, both_groupHolds_nil]
  | case2 cs _ => exact holds_under .and cs v i
  | case3 cs _ => exact holds_under .or cs v i

theorem truthAt_group (k : Connector) (cs : List Tied) (v : Nat → Bool) (i : Nat) :
    truthAt v i (group k (cs.map Prod.fst)) =
      truthUnder k (numberedTied (truthAt v) questionCount i cs) := by
  have hmembers := map_fst_numberedTied (truthAt v) questionCount i cs
  rw [truthAt, holds_group]
  cases k with
  | and =>
    rw [groupHolds, allHold_eq_numbered, ← hmembers, List.all_map]
    rfl
  | or =>
    rw [groupHolds, anyHolds_eq_numbered, ← hmembers, List.any_map]
    rfl

/-- The truths of comparisons if that of the open one with number `k` is `v k`, the first of them with
number `i`. -/
def leafTruths (v : Nat → Bool) (i : Nat) : List (String × Comparison) → List Bool
  | [] => []
  | l :: rest =>
    (compare l.1 l.2).holds v i :: leafTruths v (i + (compare l.1 l.2).questions.length) rest

end Condition

namespace Placement.AsksAll

open Condition

variable {p : Placement} {fs : List Filter} {asked : List (Field × Comparison)}

theorem numberedTied_texts (h : p.AsksAll fs asked) (w : Nat → Value → String) (i : Nat) :
    numberedTied (textAt w) operandCount i (p.tied fs asked) =
      (leafTexts w i (asked.map p.leaf)).zip (fs.map Filter.effectiveConnector) := by
  induction h generalizing i with
  | nil => rfl
  | cons _ _ ih => exact congrArg _ (ih _)

theorem numberedTied_truths (h : p.AsksAll fs asked) (v : Nat → Bool) (i : Nat) :
    numberedTied (truthAt v) questionCount i (p.tied fs asked) =
      (leafTruths v i (asked.map p.leaf)).zip (fs.map Filter.effectiveConnector) := by
  induction h generalizing i with
  | nil => rfl
  | cons _ _ ih => exact congrArg _ (ih _)

theorem operands_grouped (h : p.AsksAll fs asked) (g : Grouping) :
    (Condition.grouped g (p.tied fs asked)).sql.operands = fs.flatMap Filter.operands := by
  rw [Condition.sql, Condition.operands_sqlAt, h.leaves_grouped, h.operands]

theorem tied_ne_nil (h : p.AsksAll fs asked) (hfs : fs ≠ []) : p.tied fs asked ≠ [] := by
  cases h with
  | nil => exact absurd rfl hfs
  | cons _ _ => exact List.cons_ne_nil _ _

end Placement.AsksAll

end Targeting
