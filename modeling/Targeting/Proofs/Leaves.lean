import Targeting.Condition.Grouping
import Targeting.Proofs.Rendering

/-!
# The comparisons of a condition

Grouping, and putting several conditions together, only set the structure of a condition: the
comparisons stay the same, each once and in order. Its text is the text of these comparisons with
nothing but parentheses and connectives in between.

* `Condition.leaves`: the comparisons in order; `Condition.Full`: no group is empty;
* `flatMap_runs`, `flatten_segments`: both ways of grouping cut a list and lose nothing;
* **`Condition.leaves_grouped`, `Condition.leaves_conjunction`**, with `Condition.full_grouped` and
  `Condition.full_conjunction`;
* **`Condition.operands_sqlAt`**: the operands are those of the comparisons;
* `Woven`, **`Condition.woven_text`**: the text of a full condition.
-/

namespace Targeting

namespace Condition

/-- **Induction on conditions**, with the hypothesis for every member of a group. -/
@[elab_as_elim, induction_eliminator]
theorem induction {P : Condition → Prop} (compare : ∀ column c, P (.compare column c))
    (all : ∀ cs : List Condition, (∀ c ∈ cs, P c) → P (.all cs))
    (any : ∀ cs : List Condition, (∀ c ∈ cs, P c) → P (.any cs)) : ∀ c, P c
  | .compare column c => compare column c
  | .all cs => all cs fun c _ => induction compare all any c
  | .any cs => any cs fun c _ => induction compare all any c

/-! ## Leaves -/

mutual

/-- The comparisons of a condition in order, each with its column. -/
def leaves : Condition → List (String × Comparison)
  | compare column c => [(column, c)]
  | all cs | any cs => leavesOf cs

/-- The comparisons of several conditions. -/
def leavesOf : List Condition → List (String × Comparison)
  | [] => []
  | c :: rest => c.leaves ++ leavesOf rest

end

theorem leavesOf_eq (cs : List Condition) : leavesOf cs = cs.flatMap leaves := by
  induction cs with
  | nil => rfl
  | cons c rest ih => rw [leavesOf, ih, List.flatMap_cons]

@[simp]
theorem leaves_compare (column : String) (c : Comparison) :
    (compare column c).leaves = [(column, c)] := by
  rw [leaves]

@[simp]
theorem leaves_all (cs : List Condition) : (all cs).leaves = cs.flatMap leaves := by
  rw [leaves, leavesOf_eq]

@[simp]
theorem leaves_any (cs : List Condition) : (any cs).leaves = cs.flatMap leaves := by
  rw [leaves, leavesOf_eq]

/-- Every group has members. -/
inductive Full : Condition → Prop
  | compare (column : String) (c : Comparison) : Full (.compare column c)
  | all {cs : List Condition} (h : cs ≠ []) (hs : ∀ c ∈ cs, Full c) : Full (.all cs)
  | any {cs : List Condition} (h : cs ≠ []) (hs : ∀ c ∈ cs, Full c) : Full (.any cs)

theorem Full.isEmpty {c : Condition} (h : c.Full) : c.isEmpty = false := by
  cases h with
  | compare column c => rfl
  | all h _ => exact List.isEmpty_eq_false_iff.mpr h
  | any h _ => exact List.isEmpty_eq_false_iff.mpr h

end Condition

/-! ## Grouping -/

/-- **Runs lose nothing.** -/
theorem flatMap_runs (cs : List Tied) : (runs cs).flatMap Prod.snd = cs.map Prod.fst := by
  fun_induction runs cs with
  | case1 => rfl
  | case2 c k rest h ih => simpa [h] using ih
  | case3 c k rest cs more h ih => simpa [h] using ih
  | case4 c k rest l cs more h hk ih => simpa [h] using ih

theorem ne_nil_of_mem_runs {cs : List Tied} {r : Connector × List Condition} (h : r ∈ runs cs) :
    r.2 ≠ [] := by
  fun_induction runs cs with
  | case1 => cases h
  | case2 c k rest hr ih => simp_all
  | case3 c k rest cs more hr ih => grind
  | case4 c k rest l cs more hr hk ih => grind

/-- **Segments lose nothing.** -/
theorem flatten_segments (cs : List Tied) : (segments cs).flatten = cs.map Prod.fst := by
  fun_induction segments cs with
  | case1 => rfl
  | case2 c rest ih => simpa using ih
  | case3 c rest h ih => simpa [h] using ih
  | case4 c rest cs more h ih => simpa [h] using ih

theorem ne_nil_of_mem_segments {cs : List Tied} {s : List Condition} (h : s ∈ segments cs) :
    s ≠ [] := by
  fun_induction segments cs with
  | case1 => cases h
  | case2 c rest ih => grind
  | case3 c rest hs ih => simp_all
  | case4 c rest cs more hs ih => grind

namespace Condition

theorem leaves_group (k : Connector) (cs : List Condition) :
    (group k cs).leaves = cs.flatMap leaves := by
  fun_cases group k cs with
  | case1 c => simp
  | case2 cs _ => exact leaves_all cs
  | case3 cs _ => exact leaves_any cs

theorem leaves_asConjunction (c : Condition) : c.asConjunction.leaves = c.leaves := by
  cases c <;> simp [asConjunction]

theorem leaves_byAdjacency (cs : List Tied) :
    (byAdjacency cs).leaves = (cs.map Prod.fst).flatMap leaves := by
  rw [byAdjacency, leaves_all, List.flatMap_map, ← flatMap_runs, List.flatMap_assoc]
  simp only [leaves_group]

theorem leaves_byPrecedence (cs : List Tied) :
    (byPrecedence cs).leaves = (cs.map Prod.fst).flatMap leaves := by
  have hterms : ((segments cs).map (group .and)).flatMap leaves =
      (cs.map Prod.fst).flatMap leaves := by
    rw [List.flatMap_map, ← flatten_segments, List.flatten_eq_flatMap, List.flatMap_assoc]
    simp only [leaves_group, id]
  rw [← hterms, byPrecedence]
  split
  · next h => rw [h, leaves_all]
  · next c h => rw [h, leaves_asConjunction, List.flatMap_singleton]
  · rw [leaves_any]

/-- **Grouping keeps the comparisons**, each once and in order. -/
theorem leaves_grouped (g : Grouping) (cs : List Tied) :
    (grouped g cs).leaves = (cs.map Prod.fst).flatMap leaves := by
  cases g
  · exact leaves_byAdjacency cs
  · exact leaves_byPrecedence cs

theorem flatMap_leaves_conjuncts (cs : List Condition) :
    (conjuncts cs).flatMap leaves = cs.flatMap leaves := by
  fun_induction conjuncts cs with
  | case1 => rfl
  | case2 cs rest ih => simp [ih]
  | case3 rest ih => simp [ih]
  | case4 c rest _ _ ih => simp [ih]

/-- **Several conditions as one keep their comparisons.** -/
theorem leaves_conjunction (cs : List Condition) : (conjunction cs).leaves = cs.flatMap leaves := by
  rw [conjunction, leaves_all, flatMap_leaves_conjuncts]

/-! ## Full conditions -/

theorem full_group {k : Connector} {cs : List Condition} (h : cs ≠ []) (hs : ∀ c ∈ cs, c.Full) :
    (group k cs).Full := by
  fun_cases group k cs with
  | case1 c => exact hs _ List.mem_cons_self
  | case2 cs _ => exact .all h hs
  | case3 cs _ => exact .any h hs

theorem Full.asConjunction {c : Condition} (h : c.Full) : c.asConjunction.Full := by
  fun_cases Condition.asConjunction c with
  | case1 cs => exact h
  | case2 c _ => exact .all (List.cons_ne_nil _ _) fun d hd => by rwa [List.mem_singleton.mp hd]

theorem runs_ne_nil {cs : List Tied} (h : cs ≠ []) : runs cs ≠ [] := by
  intro hr
  have := flatMap_runs cs
  rw [hr, List.flatMap_nil] at this
  exact h (List.map_eq_nil_iff.mp this.symm)

theorem segments_ne_nil {cs : List Tied} (h : cs ≠ []) : segments cs ≠ [] := by
  intro hs
  have := flatten_segments cs
  rw [hs, List.flatten_nil] at this
  exact h (List.map_eq_nil_iff.mp this.symm)

theorem full_byAdjacency {cs : List Tied} (h : cs ≠ []) (hs : ∀ t ∈ cs, t.1.Full) :
    (byAdjacency cs).Full := by
  refine .all (fun hn => runs_ne_nil h (List.map_eq_nil_iff.mp hn)) fun c hc => ?_
  obtain ⟨r, hr, rfl⟩ := List.mem_map.mp hc
  refine full_group (ne_nil_of_mem_runs hr) fun c hc => ?_
  have hmem : c ∈ cs.map Prod.fst := flatMap_runs cs ▸ List.mem_flatMap.mpr ⟨r, hr, hc⟩
  obtain ⟨t, ht, rfl⟩ := List.mem_map.mp hmem
  exact hs t ht

theorem full_byPrecedence {cs : List Tied} (h : cs ≠ []) (hs : ∀ t ∈ cs, t.1.Full) :
    (byPrecedence cs).Full := by
  have hterms : ∀ c ∈ (segments cs).map (group .and), c.Full := fun c hc => by
    obtain ⟨s, hseg, rfl⟩ := List.mem_map.mp hc
    refine full_group (ne_nil_of_mem_segments hseg) fun c hc => ?_
    have hmem : c ∈ cs.map Prod.fst := flatten_segments cs ▸ List.mem_flatten.mpr ⟨s, hseg, hc⟩
    obtain ⟨t, ht, rfl⟩ := List.mem_map.mp hmem
    exact hs t ht
  rw [byPrecedence]
  split
  · next hn => exact absurd (List.map_eq_nil_iff.mp hn) (segments_ne_nil h)
  · next c hc => exact (hterms c (hc ▸ List.mem_cons_self)).asConjunction
  · exact .any (fun hn => segments_ne_nil h (List.map_eq_nil_iff.mp hn)) hterms

theorem full_grouped (g : Grouping) {cs : List Tied} (h : cs ≠ []) (hs : ∀ t ∈ cs, t.1.Full) :
    (grouped g cs).Full := by
  cases g
  · exact full_byAdjacency h hs
  · exact full_byPrecedence h hs

theorem full_of_mem_conjuncts {cs : List Condition} (hs : ∀ c ∈ cs, c.Full) :
    ∀ c ∈ conjuncts cs, c.Full := by
  fun_induction conjuncts cs with
  | case1 => exact hs
  | case2 ds rest ih =>
    intro c hc
    rcases List.mem_append.mp hc with hc | hc
    · cases hs (all ds) List.mem_cons_self with
      | all _ hds => exact hds c hc
    · exact ih (fun c hc => hs c (List.mem_cons_of_mem _ hc)) c hc
  | case3 rest ih => exact ih fun c hc => hs c (List.mem_cons_of_mem _ hc)
  | case4 d rest _ _ ih =>
    intro c hc
    rcases List.mem_cons.mp hc with rfl | hc
    · exact hs c List.mem_cons_self
    · exact ih (fun c hc => hs c (List.mem_cons_of_mem _ hc)) c hc

theorem conjuncts_ne_nil {cs : List Condition} (h : cs ≠ []) (hs : ∀ c ∈ cs, c.Full) :
    conjuncts cs ≠ [] := by
  fun_cases conjuncts cs with
  | case1 => exact absurd rfl h
  | case2 ds rest =>
    cases hs (all ds) List.mem_cons_self with
    | all hds _ => exact List.append_ne_nil_of_left_ne_nil hds _
  | case3 rest =>
    cases hs (any []) List.mem_cons_self with
    | any hds _ => exact absurd rfl hds
  | case4 c rest _ _ => exact List.cons_ne_nil _ _

theorem full_conjunction {cs : List Condition} (h : cs ≠ []) (hs : ∀ c ∈ cs, c.Full) :
    (conjunction cs).Full :=
  .all (conjuncts_ne_nil h hs) (full_of_mem_conjuncts hs)

/-! ## The SQL of a group -/

/-- The members of a group with its keyword in between. -/
def joined (keyword : String) : List Condition → Sql
  | [] => []
  | c :: rest => c.sqlAt true ++ sqlAfter keyword rest

/-- A group with members is these members, perhaps between parentheses. -/
theorem sqlAt_all {cs : List Condition} (h : cs ≠ []) (nested : Bool) :
    (all cs).sqlAt nested = enclosed (nested && decide (2 ≤ cs.length)) (joined " AND " cs) := by
  match cs, h with
  | [c], _ => simp [sqlAt, joined, sqlAfter, enclosed]
  | c :: d :: rest, _ => simp [sqlAt, joined]

theorem sqlAt_any {cs : List Condition} (h : cs ≠ []) (nested : Bool) :
    (any cs).sqlAt nested = enclosed (nested && decide (2 ≤ cs.length)) (joined " OR " cs) := by
  match cs, h with
  | [c], _ => simp [sqlAt, joined, sqlAfter, enclosed]
  | c :: d :: rest, _ => simp [sqlAt, joined]

theorem operands_enclosed (nested : Bool) (q : Sql) : (enclosed nested q).operands = q.operands := by
  cases nested
  · rfl
  · simp [enclosed, Sql.operands]

theorem operands_sqlAfter {f : Condition → List Value} {cs : List Condition}
    (hf : ∀ c ∈ cs, (c.sqlAt true).operands = f c) (keyword : String) :
    (sqlAfter keyword cs).operands = cs.flatMap f := by
  induction cs with
  | nil => rfl
  | cons c rest ih =>
    obtain ⟨hc, hrest⟩ := List.forall_mem_cons.mp hf
    rw [sqlAfter, Sql.operands, Sql.operands_append, hc, ih hrest, List.flatMap_cons]

theorem operands_joined {f : Condition → List Value} {cs : List Condition}
    (hf : ∀ c ∈ cs, (c.sqlAt true).operands = f c) (keyword : String) :
    (joined keyword cs).operands = cs.flatMap f := by
  cases cs with
  | nil => rfl
  | cons c rest =>
    obtain ⟨hc, hrest⟩ := List.forall_mem_cons.mp hf
    rw [joined, Sql.operands_append, hc, operands_sqlAfter hrest, List.flatMap_cons]

/-- The SQL of a comparison with its column. -/
def leafSql (l : String × Comparison) : Sql := l.2.sql l.1

/-- **The operands of a condition are those of its comparisons**, in order. -/
theorem operands_sqlAt (nested : Bool) (c : Condition) :
    (c.sqlAt nested).operands = c.leaves.flatMap fun l => (leafSql l).operands := by
  induction c generalizing nested with
  | compare column c => rw [sqlAt, leaves_compare, List.flatMap_singleton, leafSql]
  | all cs ih =>
    by_cases h : cs = []
    · subst h; rfl
    · rw [sqlAt_all h, operands_enclosed, operands_joined fun c hc => ih c hc true, leaves_all,
        List.flatMap_assoc]
  | any cs ih =>
    by_cases h : cs = []
    · subst h; rfl
    · rw [sqlAt_any h, operands_enclosed, operands_joined fun c hc => ih c hc true, leaves_any,
        List.flatMap_assoc]

end Condition

/-! ## The text of a condition -/

/-- What stands between the comparisons of a condition. -/
def connectives : List String := ["(", ")", " AND ", " OR "]

/-- A text consists of parts in order, each once, with nothing but parentheses and connectives before,
between and after them. -/
inductive Woven : List String → String → Prop
  | nil : Woven [] ""
  | connective (g : String) (hg : g ∈ connectives) {parts : List String} {s : String}
      (h : Woven parts s) : Woven parts (g ++ s)
  | part (p : String) {parts : List String} {s : String} (h : Woven parts s) :
      Woven (p :: parts) (p ++ s)

namespace Woven

theorem append {ps qs : List String} {s t : String} (hs : Woven ps s) (ht : Woven qs t) :
    Woven (ps ++ qs) (s ++ t) := by
  induction hs with
  | nil => rwa [List.nil_append, String.empty_append]
  | connective g hg _ ih => rw [String.append_assoc]; exact .connective g hg ih
  | part p _ ih => rw [List.cons_append, String.append_assoc]; exact .part p ih

theorem single (p : String) : Woven [p] p := by
  have h := Woven.part p .nil
  rwa [String.append_empty] at h

theorem closed {ps : List String} {s : String} (h : Woven ps s) : Woven ps ("(" ++ (s ++ ")")) := by
  have hclose : Woven [] ")" := by
    have h := Woven.connective ")" (by decide) .nil
    rwa [String.append_empty] at h
  have h' := Woven.connective "(" (by decide) (h.append hclose)
  rwa [List.append_nil] at h'

end Woven

/-- The texts of several pieces of SQL, with their operands numbered through. -/
def Sql.texts (w : Nat → Value → String) (i : Nat) : List Sql → List String
  | [] => []
  | q :: rest => q.textWith w i :: Sql.texts w (i + q.operands.length) rest

theorem Sql.texts_append (w : Nat → Value → String) (i : Nat) (ps qs : List Sql) :
    Sql.texts w i (ps ++ qs) =
      Sql.texts w i ps ++ Sql.texts w (i + (ps.flatMap Sql.operands).length) qs := by
  induction ps generalizing i with
  | nil => rfl
  | cons p rest ih =>
    rw [List.cons_append, Sql.texts, ih, Sql.texts, List.cons_append, List.flatMap_cons,
      List.length_append, Nat.add_assoc]

theorem Sql.length_texts (w : Nat → Value → String) (i : Nat) (qs : List Sql) :
    (Sql.texts w i qs).length = qs.length := by
  induction qs generalizing i with
  | nil => rfl
  | cons q rest ih => rw [Sql.texts, List.length_cons, ih, List.length_cons]

namespace Condition

variable (w : Nat → Value → String)

/-- The texts of comparisons, with their operands numbered from `i` on. -/
def leafTexts (i : Nat) (ls : List (String × Comparison)) : List String :=
  Sql.texts w i (ls.map leafSql)

theorem leafTexts_append (i : Nat) (ls ms : List (String × Comparison)) :
    leafTexts w i (ls ++ ms) =
      leafTexts w i ls ++ leafTexts w (i + (ls.flatMap fun l => (leafSql l).operands).length) ms := by
  rw [leafTexts, List.map_append, Sql.texts_append, List.flatMap_map]
  rfl

/-- A condition is woven from its comparisons wherever its operands are numbered from. -/
def IsWoven (c : Condition) : Prop :=
  ∀ nested i, Woven (leafTexts w i c.leaves) ((c.sqlAt nested).textWith w i)

theorem woven_sqlAfter {keyword : String} (hk : keyword ∈ connectives) {cs : List Condition}
    (hs : ∀ c ∈ cs, IsWoven w c) (i : Nat) :
    Woven (leafTexts w i (cs.flatMap leaves)) ((sqlAfter keyword cs).textWith w i) := by
  induction cs generalizing i with
  | nil => exact .nil
  | cons c rest ih =>
    rw [List.flatMap_cons, leafTexts_append, sqlAfter, Sql.textWith, Sql.textWith_append,
      operands_sqlAt]
    exact .connective keyword hk
      ((hs c List.mem_cons_self true i).append (ih (fun d hd => hs d (List.mem_cons_of_mem _ hd)) _))

theorem woven_joined {keyword : String} (hk : keyword ∈ connectives) {cs : List Condition}
    (hs : ∀ c ∈ cs, IsWoven w c) (i : Nat) :
    Woven (leafTexts w i (cs.flatMap leaves)) ((joined keyword cs).textWith w i) := by
  cases cs with
  | nil => exact .nil
  | cons c rest =>
    rw [List.flatMap_cons, leafTexts_append, joined, Sql.textWith_append, operands_sqlAt]
    exact (hs c List.mem_cons_self true i).append
      (woven_sqlAfter w hk (fun d hd => hs d (List.mem_cons_of_mem _ hd)) _)

theorem woven_enclosed {ps : List String} {q : Sql} {i : Nat} (h : Woven ps (q.textWith w i))
    (nested : Bool) : Woven ps ((enclosed nested q).textWith w i) := by
  cases nested
  · exact h
  · have htext : (enclosed true q).textWith w i = "(" ++ (q.textWith w i ++ ")") := by
      rw [enclosed, if_pos rfl, Sql.textWith, Sql.textWith_append, Sql.textWith, Sql.textWith,
        String.append_empty]
    rw [htext]
    exact h.closed

/-- **The text of a full condition is woven from the texts of its comparisons.** -/
theorem woven_text {c : Condition} (h : c.Full) : IsWoven w c := by
  induction h with
  | compare column c =>
    intro nested i
    rw [leaves_compare, sqlAt]
    exact .single _
  | @all cs hne _ ih =>
    intro nested i
    rw [leaves_all, sqlAt_all hne]
    exact woven_enclosed w (woven_joined w (by decide) ih i) _
  | @any cs hne _ ih =>
    intro nested i
    rw [leaves_any, sqlAt_any hne]
    exact woven_enclosed w (woven_joined w (by decide) ih i) _

end Condition

end Targeting
