import Mathlib.Combinatorics.SimpleGraph.Metric
import Targeting.Proofs.Vetted
import Targeting.Sample

/-!
# Breadth first

The graph strategy walks the relationships of an audience from its root. Two objects are adjacent if
some relationship mentions both, so one relationship may tie any number of objects to each other.

* `Audience.adjacency`: the graph of an audience;
* `JoinPlan.joinsFrom_rest`, `JoinPlan.perm_joinsFrom`: what one object of the queue joins, and what it
  leaves pending;
* `Search`: what holds between two steps of the walk; `Search.start`, **`Search.step`**;
* **`Search.run`**: the objects joined on the whole walk, and those that it leaves pending;
* `JoinPlan.Spans`: a plan that joins all objects, nearest first;
* **`Audience.graph_spans`**: the graph strategy finds such a plan if there is one, and otherwise names
  the first object out of reach.
-/

namespace Targeting

/-! ## The graph of an audience -/

/-- The graph whose edges run between any two objects that some relationship mentions. -/
def Audience.adjacency (a : Audience) : SimpleGraph Placement where
  Adj p q := p ≠ q ∧ p ∈ a.objects ∧ q ∈ a.objects ∧
    ∃ r ∈ a.relationships, r.mentions p.label = true ∧ r.mentions q.label = true
  symm := ⟨fun _ _ ⟨hne, hp, hq, r, hr, hmp, hmq⟩ => ⟨hne.symm, hq, hp, r, hr, hmq, hmp⟩⟩
  loopless := ⟨fun _ h => h.1 rfl⟩

section Distance

variable {V : Type} {G : SimpleGraph V} {u v w : V}

theorem dist_le_succ_of_adj (h : G.Reachable u v) (hadj : G.Adj v w) :
    G.dist u w ≤ G.dist u v + 1 :=
  SimpleGraph.dist_eq_one_iff_adj.mpr hadj ▸ h.dist_triangle_left w

/-- The last vertex but one of a shortest walk. -/
theorem exists_adj_dist_lt (h : G.Reachable u w) (hne : u ≠ w) :
    ∃ v, G.Adj v w ∧ G.dist u v < G.dist u w := by
  obtain ⟨walk, hlength⟩ := h.exists_walk_length_eq_dist
  obtain ⟨v, hadj, rest, hwalk⟩ := SimpleGraph.Walk.exists_eq_cons_of_ne hne.symm walk.reverse
  refine ⟨v, hadj.symm, ?_⟩
  have hrest : G.dist v u ≤ rest.length := SimpleGraph.dist_le rest
  have hcount : walk.length = rest.length + 1 := by
    rw [← walk.length_reverse, hwalk, SimpleGraph.Walk.length_cons]
  rw [SimpleGraph.dist_comm]
  omega

end Distance

namespace JoinPlan

/-! ## One object of the queue -/

/-- Some relationship mentions both aliases. -/
def tied (rs : List Relationship) (label other : String) : Bool :=
  rs.any fun r => r.mentions label && r.mentions other

theorem tied_iff {rs : List Relationship} {label other : String} :
    tied rs label other = true ↔
      ∃ r ∈ rs, r.mentions label = true ∧ r.mentions other = true := by
  simp only [tied, List.any_eq_true, Bool.and_eq_true]

/-- **What is left pending** is not tied to the object of the queue. -/
theorem joinsFrom_rest (label : String) (rs : List Relationship) (ps : List Placement) :
    (joinsFrom label rs ps).2 = ps.filter fun q => !tied rs label q.label := by
  induction rs generalizing ps with
  | nil => simp [joinsFrom, tied]
  | cons r rs ih =>
    rw [joinsFrom]
    cases hr : r.mentions label with
    | true =>
      rw [if_pos rfl]
      simp only [ih, unreached, List.filter_filter]
      refine List.filter_congr fun q _ => ?_
      rw [tied, tied, List.any_cons, hr, Bool.true_and, Bool.not_or, Bool.and_comm]
    | false =>
      rw [if_neg Bool.false_ne_true, ih]
      refine List.filter_congr fun q _ => ?_
      rw [tied, tied, List.any_cons, hr, Bool.false_and, Bool.false_or]

theorem mentions_of_mem_joinsFrom {label : String} {rs : List Relationship} {ps : List Placement}
    {j : Join} (hj : j ∈ (joinsFrom label rs ps).1) :
    j.relationship.mentions label = true ∧ j.relationship.mentions j.target.label = true := by
  induction rs generalizing ps with
  | nil => cases hj
  | cons r rs ih =>
    rw [joinsFrom] at hj
    split at hj
    · next hr =>
      rcases List.mem_append.mp hj with hj | hj
      · obtain ⟨p, hp, rfl⟩ := List.mem_map.mp hj
        exact ⟨hr, (List.mem_filter.mp (mem_of_mem_firsts hp)).2⟩
      · exact ih hj
    · exact ih hj

/-- Objects with different aliases are all first under theirs. -/
theorem firsts_eq_self {ps : List Placement} (h : (ps.map Placement.label).Nodup) :
    firsts ps = ps := by
  induction ps with
  | nil => rfl
  | cons p rest ih =>
    obtain ⟨hp, hrest⟩ := List.nodup_cons.mp h
    rw [firsts, ih hrest, List.filter_eq_self.mpr fun q hq => ?_]
    have hne : q.label ≠ p.label := fun he => hp (he ▸ List.mem_map_of_mem hq)
    exact decide_eq_true hne

/-- **Every pending object is joined once or stays pending.** -/
theorem perm_joinsFrom (label : String) (rs : List Relationship) {ps : List Placement}
    (h : (ps.map Placement.label).Nodup) :
    ((joinsFrom label rs ps).1.map Join.target ++ (joinsFrom label rs ps).2).Perm ps := by
  induction rs generalizing ps with
  | nil => exact .refl _
  | cons r rs ih =>
    have hsub : ∀ f : Placement → Bool, ((ps.filter f).map Placement.label).Nodup := fun f =>
      h.sublist (List.filter_sublist.map _)
    rw [joinsFrom]
    split
    · have htargets : ((reached r ps).map fun p => Join.mk p r).map Join.target = reached r ps := by
        rw [List.map_map]
        exact List.map_id _
      simp only [List.map_append, htargets, List.append_assoc]
      have hreached : reached r ps = ps.filter fun p => r.mentions p.label :=
        firsts_eq_self (hsub _)
      rw [hreached]
      exact ((ih (hsub _)).append_left _).trans (List.filter_append_perm _ ps)
    · exact ih h

end JoinPlan

/-! ## The walk -/

/-- What holds between two steps of the walk. Every object is done, waits in the queue or is pending.
The queue is ordered by distance, and the first object in it is at most one hop behind the last. -/
structure Search (a : Audience) (root : Placement) (done queue pending : List Placement) : Prop where
  parts : (done ++ queue ++ pending).Perm a.objects
  started : root ∈ done ++ queue
  connected : ∀ p ∈ queue, a.adjacency.Reachable root p
  closed : ∀ p ∈ done, ∀ q ∈ pending, ¬ a.adjacency.Adj p q
  ordered : queue.Pairwise fun p q => a.adjacency.dist root p ≤ a.adjacency.dist root q
  narrow : ∀ p ∈ queue, ∀ q ∈ queue, a.adjacency.dist root q ≤ a.adjacency.dist root p + 1
  ahead : ∀ p ∈ queue, ∀ q ∈ pending, a.adjacency.Reachable root q →
    a.adjacency.dist root p ≤ a.adjacency.dist root q

namespace Search

variable {a : Audience} {root p : Placement} {done queue pending : List Placement}

theorem start {others : List Placement} (h : a.objects = root :: others) :
    Search a root [] [root] others where
  parts := by rw [h]; exact .refl _
  started := List.mem_singleton_self root
  connected := List.forall_mem_singleton.mpr (.refl root)
  closed := List.forall_mem_nil _
  ordered := List.pairwise_singleton _ root
  narrow := by simp
  ahead := by simp

theorem nodup (h : Search a root done queue pending) (hnodup : a.objects.Nodup) :
    (done ++ queue ++ pending).Nodup :=
  h.parts.nodup_iff.mpr hnodup

/-- Nothing is pending that was reached before. -/
theorem not_pending (h : Search a root done queue pending) (hnodup : a.objects.Nodup) {q : Placement}
    (hq : q ∈ done ++ queue) : q ∉ pending :=
  fun hpending => (List.nodup_append.mp (h.nodup hnodup)).2.2 q hq q hpending rfl

theorem mem_parts (h : Search a root done queue pending) {q : Placement} (hq : q ∈ a.objects) :
    q ∈ done ∨ q ∈ queue ∨ q ∈ pending := by
  have hmem := h.parts.mem_iff.mpr hq
  rw [List.append_assoc] at hmem
  exact (List.mem_append.mp hmem).imp id List.mem_append.mp

/-- **What is still pending is farther away than the first object of the queue**: the last object but
one on a shortest walk would be nearer than that, hence done, and then nothing next to it is pending. -/
theorem dist_lt_of_pending (h : Search a root done (p :: queue) pending) (hnodup : a.objects.Nodup)
    {q : Placement} (hq : q ∈ pending) (hreach : a.adjacency.Reachable root q) :
    a.adjacency.dist root p < a.adjacency.dist root q := by
  by_contra hle
  have hne : root ≠ q := fun he => h.not_pending hnodup (he ▸ h.started) hq
  obtain ⟨m, hadj, hlt⟩ := exists_adj_dist_lt hreach hne
  rcases h.mem_parts hadj.2.1 with hm | hm | hm
  · exact h.closed m hm q hq hadj
  · rcases List.mem_cons.mp hm with rfl | hm
    · omega
    · have := List.rel_of_pairwise_cons h.ordered hm
      omega
  · have := h.ahead p List.mem_cons_self m hm (hreach.trans hadj.symm.reachable)
    omega

/-- The first object of the queue is adjacent to the pending objects that it is tied to. -/
theorem adj_iff (h : Search a root done (p :: queue) pending) (hnodup : a.objects.Nodup)
    {q : Placement} (hq : q ∈ pending) :
    a.adjacency.Adj p q ↔ JoinPlan.tied a.relationships p.label q.label = true := by
  have hp : p ∈ done ++ p :: queue := List.mem_append_right _ List.mem_cons_self
  have hmem : ∀ x ∈ done ++ p :: queue ++ pending, x ∈ a.objects := fun x => h.parts.mem_iff.mp
  rw [JoinPlan.tied_iff]
  refine ⟨fun hadj => hadj.2.2.2, fun htied => ⟨?_, ?_, ?_, htied⟩⟩
  · rintro rfl
    exact h.not_pending hnodup hp hq
  · exact hmem p (List.mem_append_left _ hp)
  · exact hmem q (List.mem_append_right _ hq)

end Search

/-- The objects that an object of the queue joins. -/
def Audience.joinedFrom (a : Audience) (p : Placement) (pending : List Placement) : List Placement :=
  (JoinPlan.joinsFrom p.label a.relationships pending).1.map Join.target

/-- The objects that it leaves pending. -/
def Audience.leftFrom (a : Audience) (p : Placement) (pending : List Placement) : List Placement :=
  (JoinPlan.joinsFrom p.label a.relationships pending).2

namespace Search

variable {a : Audience} {root p q : Placement} {done queue pending : List Placement}

theorem perm_pending (h : Search a root done (p :: queue) pending)
    (hlabels : (a.objects.map Placement.label).Nodup) :
    (a.joinedFrom p pending ++ a.leftFrom p pending).Perm pending := by
  have hall := (h.parts.map Placement.label).nodup_iff.mpr hlabels
  rw [List.map_append] at hall
  exact JoinPlan.perm_joinsFrom p.label _ (List.nodup_append.mp hall).2.1

theorem mem_joinedFrom (h : Search a root done (p :: queue) pending)
    (hlabels : (a.objects.map Placement.label).Nodup) (hq : q ∈ a.joinedFrom p pending) :
    q ∈ pending ∧ a.adjacency.Adj p q := by
  have hmem : q ∈ pending := (h.perm_pending hlabels).mem_iff.mp (List.mem_append_left _ hq)
  obtain ⟨j, hj, rfl⟩ := List.mem_map.mp hq
  have htied := JoinPlan.tied_iff.mpr ⟨j.relationship,
    ((JoinPlan.mem_of_mem_joinsFrom _ _ _).1 j hj).2, JoinPlan.mentions_of_mem_joinsFrom hj⟩
  exact ⟨hmem, (h.adj_iff (.of_map _ hlabels) hmem).mpr htied⟩

theorem mem_leftFrom (h : Search a root done (p :: queue) pending)
    (hlabels : (a.objects.map Placement.label).Nodup) (hq : q ∈ a.leftFrom p pending) :
    q ∈ pending ∧ ¬ a.adjacency.Adj p q := by
  rw [Audience.leftFrom, JoinPlan.joinsFrom_rest] at hq
  obtain ⟨hmem, htied⟩ := List.mem_filter.mp hq
  rw [h.adj_iff (.of_map _ hlabels) hmem]
  exact ⟨hmem, by simpa using htied⟩

theorem reachable_of_joined (h : Search a root done (p :: queue) pending)
    (hlabels : (a.objects.map Placement.label).Nodup) (hq : q ∈ a.joinedFrom p pending) :
    a.adjacency.Reachable root q :=
  (h.connected p List.mem_cons_self).trans (h.mem_joinedFrom hlabels hq).2.reachable

/-- **What is joined is one hop away** from the object that joins it. -/
theorem dist_of_joined (h : Search a root done (p :: queue) pending)
    (hlabels : (a.objects.map Placement.label).Nodup) (hq : q ∈ a.joinedFrom p pending) :
    a.adjacency.dist root q = a.adjacency.dist root p + 1 := by
  obtain ⟨hmem, hadj⟩ := h.mem_joinedFrom hlabels hq
  have hle := dist_le_succ_of_adj (h.connected p List.mem_cons_self) hadj
  have hlt := h.dist_lt_of_pending (.of_map _ hlabels) hmem (h.reachable_of_joined hlabels hq)
  omega

/-- The queue after a step is at most one hop long. -/
theorem dist_of_queue (h : Search a root done (p :: queue) pending)
    (hlabels : (a.objects.map Placement.label).Nodup) (hq : q ∈ queue ++ a.joinedFrom p pending) :
    a.adjacency.dist root p ≤ a.adjacency.dist root q ∧
      a.adjacency.dist root q ≤ a.adjacency.dist root p + 1 := by
  rcases List.mem_append.mp hq with hq | hq
  · exact ⟨List.rel_of_pairwise_cons h.ordered hq,
      h.narrow p List.mem_cons_self q (List.mem_cons_of_mem _ hq)⟩
  · have := h.dist_of_joined hlabels hq
    omega

/-- **One step of the walk** joins what is pending next to the first object of the queue. -/
theorem step (h : Search a root done (p :: queue) pending)
    (hlabels : (a.objects.map Placement.label).Nodup) :
    Search a root (done ++ [p]) (queue ++ a.joinedFrom p pending) (a.leftFrom p pending) where
  parts := by
    have hassoc : done ++ [p] ++ (queue ++ a.joinedFrom p pending) ++ a.leftFrom p pending =
        done ++ p :: queue ++ (a.joinedFrom p pending ++ a.leftFrom p pending) := by
      simp
    rw [hassoc]
    exact ((h.perm_pending hlabels).append_left _).trans h.parts
  started := by
    have hstarted : root ∈ (done ++ [p] ++ queue) ++ a.joinedFrom p pending :=
      List.mem_append_left _ (by simpa using h.started)
    simpa using hstarted
  connected := by
    intro q hq
    rcases List.mem_append.mp hq with hq | hq
    · exact h.connected q (List.mem_cons_of_mem _ hq)
    · exact h.reachable_of_joined hlabels hq
  closed := by
    intro q hq r hr
    obtain ⟨hpending, hfar⟩ := h.mem_leftFrom hlabels hr
    rcases List.mem_append.mp hq with hq | hq
    · exact h.closed q hq r hpending
    · rwa [List.mem_singleton.mp hq]
  ordered := by
    refine List.pairwise_append.mpr ⟨h.ordered.of_cons, ?_, fun q hq r hr => ?_⟩
    · refine List.pairwise_of_forall_mem_list fun q hq r hr => ?_
      rw [h.dist_of_joined hlabels hq, h.dist_of_joined hlabels hr]
    · rw [h.dist_of_joined hlabels hr]
      exact (h.dist_of_queue hlabels (List.mem_append_left _ hq)).2
  narrow := by
    intro q hq r hr
    have hlower := (h.dist_of_queue hlabels hq).1
    have hupper := (h.dist_of_queue hlabels hr).2
    omega
  ahead := by
    intro q hq r hr hreach
    have hupper := (h.dist_of_queue hlabels hq).2
    have hlt := h.dist_lt_of_pending (.of_map _ hlabels) (h.mem_leftFrom hlabels hr).1 hreach
    omega

/-- Once the queue is empty, nothing within reach is pending. -/
theorem not_pending_of_reachable (h : Search a root done [] pending) (hnodup : a.objects.Nodup)
    (hreach : a.adjacency.Reachable root q) : q ∉ pending := by
  rw [SimpleGraph.reachable_iff_reflTransGen] at hreach
  induction hreach with
  | refl => exact h.not_pending hnodup h.started
  | @tail m r _ hadj ih =>
    intro hr
    rcases h.mem_parts hadj.2.1 with hm | hm | hm
    · exact h.closed m hm r hr hadj
    · cases hm
    · exact ih hm

end Search

open Classical in
/-- What a walk from a queue yields: objects within reach, joined in the order of their distance, while
those out of reach stay pending. -/
structure Walked (a : Audience) (root : Placement) (queue pending : List Placement)
    (joins : List Join) (rest : List Placement) : Prop where
  parts : (joins.map Join.target ++ rest).Perm pending
  ordered : (queue ++ joins.map Join.target).Pairwise fun p q =>
    a.adjacency.dist root p ≤ a.adjacency.dist root q
  reached : ∀ q ∈ joins.map Join.target, a.adjacency.Reachable root q
  unreached : rest = pending.filter fun q => ¬ a.adjacency.Reachable root q

open Classical in
/-- **The whole walk**, by induction on its steps. -/
theorem Search.run {a : Audience} {root : Placement} {done queue pending : List Placement}
    (h : Search a root done queue pending) (hlabels : (a.objects.map Placement.label).Nodup) :
    Walked a root queue pending (JoinPlan.walk a.relationships queue pending).1
      (JoinPlan.walk a.relationships queue pending).2 := by
  have hnodup : a.objects.Nodup := .of_map _ hlabels
  revert done
  induction queue, pending using JoinPlan.walk.induct a.relationships
  case case1 pending =>
    intro done h
    rw [JoinPlan.walk]
    refine ⟨.refl _, .nil, List.forall_mem_nil _, (List.filter_eq_self.mpr fun q hq => ?_).symm⟩
    exact decide_eq_true fun hreach => h.not_pending_of_reachable hnodup hreach hq
  case case2 pending p queue step _ _ _ ih =>
    intro done h
    have hwalked := ih (h.step hlabels)
    rw [JoinPlan.walk]
    generalize JoinPlan.walk a.relationships (queue ++ step.1.map Join.target) step.2 = walked
      at hwalked
    have htargets : (step.1 ++ walked.1).map Join.target =
        a.joinedFrom p pending ++ walked.1.map Join.target := List.map_append
    have hreached : ∀ q ∈ (step.1 ++ walked.1).map Join.target, a.adjacency.Reachable root q := by
      rw [htargets]
      exact List.forall_mem_append.mpr
        ⟨fun q hq => h.reachable_of_joined hlabels hq, hwalked.reached⟩
    have hparts : ((step.1 ++ walked.1).map Join.target ++ walked.2).Perm pending := by
      rw [htargets, List.append_assoc]
      exact (hwalked.parts.append_left _).trans (h.perm_pending hlabels)
    refine ⟨hparts, ?_, hreached, ?_⟩
    · rw [List.cons_append]
      refine List.pairwise_cons.mpr ⟨fun q hq => ?_, ?_⟩
      · rcases List.mem_append.mp hq with hq | hq
        · exact List.rel_of_pairwise_cons h.ordered hq
        · exact h.ahead p List.mem_cons_self q
            (hparts.mem_iff.mp (List.mem_append_left _ hq)) (hreached q hq)
      · rw [htargets, ← List.append_assoc]
        exact hwalked.ordered
    · have hleft : step.2 = pending.filter fun q => !JoinPlan.tied a.relationships p.label q.label :=
        JoinPlan.joinsFrom_rest p.label a.relationships pending
      rw [hwalked.unreached, hleft, List.filter_filter]
      -- Objects that the step joins are within reach, so leaving them out changes nothing.
      refine List.filter_congr fun q hq => ?_
      rw [Bool.eq_iff_iff, Bool.and_eq_true, decide_eq_true_iff, Bool.not_eq_true',
        ← Bool.not_eq_true, ← h.adj_iff hnodup hq]
      exact and_iff_left_of_imp fun hfar hadj =>
        hfar ((h.connected p List.mem_cons_self).trans hadj.reachable)

namespace JoinPlan

/-! ## Where joins start from -/

/-- **Every join starts from an object that is selected from before it**, or waited in the queue. -/
theorem mentions_of_walk {rs : List Relationship} {queue pending : List Placement}
    {before after : List Join} {j : Join}
    (h : (walk rs queue pending).1 = before ++ j :: after) :
    j.relationship.mentions j.target.label = true ∧
      ∃ p ∈ queue ++ before.map Join.target, j.relationship.mentions p.label = true := by
  revert before
  induction queue, pending using walk.induct rs
  case case1 pending =>
    intro before h
    rw [walk] at h
    exact absurd h.symm (List.append_ne_nil_of_right_ne_nil _ (List.cons_ne_nil _ _))
  case case2 pending p queue step _ _ _ ih =>
    intro before h
    rw [walk] at h
    rcases List.append_eq_append_iff.mp h with ⟨before', rfl, hwalk⟩ | ⟨joined, hstep, hafter⟩
    · obtain ⟨htarget, q, hq, hmentions⟩ := ih hwalk
      refine ⟨htarget, q, ?_, hmentions⟩
      rw [List.map_append, ← List.append_assoc]
      exact List.mem_cons_of_mem _ hq
    · cases joined with
      | nil =>
        have hwalk : _ = [] ++ j :: after := hafter.symm
        obtain ⟨htarget, q, hq, hmentions⟩ := ih hwalk
        rw [List.append_nil] at hstep
        refine ⟨htarget, q, ?_, hmentions⟩
        rw [List.map_nil, List.append_nil, hstep] at hq
        exact List.mem_cons_of_mem _ hq
      | cons k joined =>
        obtain ⟨rfl, _⟩ := List.cons.inj hafter
        have hmem : j ∈ step.1 := hstep ▸ List.mem_append_right _ List.mem_cons_self
        obtain ⟨hlabel, htarget⟩ := mentions_of_mem_joinsFrom hmem
        exact ⟨htarget, p, List.mem_cons_self, hlabel⟩

/-! ## Plans -/

/-- A plan that joins every object of an audience to its root. The objects nearest to the root come
first, and each is joined by a relationship that mentions it and an object before it. -/
structure Spans (plan : JoinPlan) (a : Audience) (root : Placement) : Prop where
  start : plan.root = root
  leftOut : plan.leftOut = []
  objects : plan.objects.Perm a.objects
  joins : ∀ before j after, plan.joins = before ++ j :: after →
    j.relationship ∈ a.relationships ∧ j.relationship.mentions j.target.label = true ∧
      ∃ p ∈ root :: before.map Join.target, j.relationship.mentions p.label = true
  ordered : plan.objects.Pairwise fun p q => a.adjacency.dist root p ≤ a.adjacency.dist root q

/-- The walk of the graph strategy. -/
theorem walked_graph {a : Audience} {root : Placement} {others : List Placement}
    (hobjects : a.objects = root :: others) (hlabels : (a.objects.map Placement.label).Nodup) :
    Walked a root [root] others (walk a.relationships [root] others).1
        (walk a.relationships [root] others).2 ∧
      graph a = match (walk a.relationships [root] others).2 with
        | [] => .ok { root, joins := (walk a.relationships [root] others).1, leftOut := [] }
        | p :: _ => .error (.configuration (.notConnected p.object.name p.label root.label)) := by
  have hpending : (root :: others).filter (fun p => p.label ≠ root.label) = others := by
    have hfresh : ∀ p ∈ others, decide (p.label ≠ root.label) = true := by
      intro p hp
      rw [hobjects] at hlabels
      exact decide_eq_true fun he => (List.nodup_cons.mp hlabels).1 (he ▸ List.mem_map_of_mem hp)
    rw [List.filter_cons_of_neg (by simp), List.filter_eq_self.mpr hfresh]
  refine ⟨(Search.start hobjects).run hlabels, ?_⟩
  rw [graph, hobjects]
  cases hrest : (walk a.relationships [root] others).2 with
  | nil => simp only [graphFrom, hpending, hrest]
  | cons p rest => simp only [graphFrom, hpending, hrest]

/-- **A plan by the graph strategy spans its audience.** -/
theorem spans_of_graph {a : Audience} {root : Placement} {others : List Placement}
    (hobjects : a.objects = root :: others) (hlabels : (a.objects.map Placement.label).Nodup)
    {plan : JoinPlan} (h : graph a = .ok plan) :
    plan.Spans a root ∧ ∀ p ∈ a.objects, a.adjacency.Reachable root p := by
  obtain ⟨hwalked, hgraph⟩ := walked_graph hobjects hlabels
  rw [hgraph] at h
  split at h
  · next hrest =>
    cases h
    have hparts := hwalked.parts
    rw [hrest, List.append_nil] at hparts
    refine ⟨⟨rfl, rfl, ?_, fun before j after hjoins => ?_, hwalked.ordered⟩, ?_⟩
    · rw [hobjects]
      exact hparts.cons root
    · have hmem : j ∈ before ++ j :: after := List.mem_append_right _ List.mem_cons_self
      rw [← hjoins] at hmem
      exact ⟨(mem_of_mem_walk j hmem).2, mentions_of_walk hjoins⟩
    · rw [hobjects]
      exact List.forall_mem_cons.mpr
        ⟨.refl root, fun p hp => hwalked.reached p (hparts.mem_iff.mpr hp)⟩
  · cases h

open Classical in
/-- **Where the graph strategy fails**, it names the first object out of reach. -/
theorem unreached_of_graph {a : Audience} {root : Placement} {others : List Placement}
    (hobjects : a.objects = root :: others) (hlabels : (a.objects.map Placement.label).Nodup)
    {e : Error} (h : graph a = .error e) : ∃ before p after, a.objects = before ++ p :: after ∧
      (∀ q ∈ before, a.adjacency.Reachable root q) ∧ ¬ a.adjacency.Reachable root p ∧
      e = .configuration (.notConnected p.object.name p.label root.label) := by
  obtain ⟨hwalked, hgraph⟩ := walked_graph hobjects hlabels
  rw [hgraph] at h
  split at h
  · cases h
  · next p rest hrest =>
    cases h
    have hfilter := hwalked.unreached
    rw [hrest] at hfilter
    obtain ⟨before, after, rfl, hbefore, hp, _⟩ := List.filter_eq_cons_iff.mp hfilter.symm
    refine ⟨root :: before, p, after, hobjects, ?_, of_decide_eq_true hp, rfl⟩
    exact List.forall_mem_cons.mpr ⟨.refl root, fun q hq => by simpa using hbefore q hq⟩

end JoinPlan

namespace Audience

variable (a : Audience)

/-- **The graph strategy is a breadth-first search from the root of a valid audience**: it finds a plan
exactly if every object is within reach. The plan joins all of them, nearest first, each to an object
before it; without a plan, the error names the first object that is out of reach. -/
theorem graph_spans (h : a.validate = .ok ()) :
    ∃ root others, a.objects = root :: others ∧
      ((∃ plan, JoinPlan.graph a = .ok plan) ↔ ∀ p ∈ a.objects, a.adjacency.Reachable root p) ∧
      (∀ plan, JoinPlan.graph a = .ok plan → plan.Spans a root) ∧
      ∀ e, JoinPlan.graph a = .error e → ∃ before p after, a.objects = before ++ p :: after ∧
        (∀ q ∈ before, a.adjacency.Reachable root q) ∧ ¬ a.adjacency.Reachable root p ∧
        e = .configuration (.notConnected p.object.name p.label root.label) := by
  obtain ⟨root, others, hobjects⟩ := List.exists_cons_of_ne_nil (checks_of_validate h).1
  have hlabels := nodup_labels_of_validate h
  refine ⟨root, others, hobjects, ⟨?_, fun hreach => ?_⟩, ?_, ?_⟩
  · rintro ⟨plan, hplan⟩
    exact (JoinPlan.spans_of_graph hobjects hlabels hplan).2
  · cases hgraph : JoinPlan.graph a with
    | ok plan => exact ⟨plan, rfl⟩
    | error e =>
      obtain ⟨before, p, after, hparts, _, hp, _⟩ :=
        JoinPlan.unreached_of_graph hobjects hlabels hgraph
      have hmem : p ∈ a.objects := hparts ▸ List.mem_append_right _ List.mem_cons_self
      exact absurd (hreach p hmem) hp
  · exact fun plan hplan => (JoinPlan.spans_of_graph hobjects hlabels hplan).1
  · exact fun e he => JoinPlan.unreached_of_graph hobjects hlabels he

/-- Objects on a loop, with a relationship between three of them and one of the root with itself. -/
def looped : Audience where
  objects :=
    [{ object := { table := "offices" }, label := "o" }, { object := Sample.contacts, label := "p" },
      { object := Sample.companies, label := "c" }, { object := { table := "events" }, label := "e" }]
  relationships :=
    [{ condition := "c.company_id = p.company_id" }, { condition := "o.company_id = c.company_id" },
      { condition := "o.parent_id = o.office_id" },
      { condition := "c.event_id = e.event_id AND p.event_id = e.event_id" }]

/-- The same objects without what ties the contacts and the events to the others. -/
def scattered : Audience where
  objects := looped.objects
  relationships :=
    [{ condition := "o.company_id = c.company_id" }, { condition := "p.event_id = e.event_id" }]

/-- The plan of the loop goes from near to far, and of the scattered objects the contacts are named. -/
theorem looped_graph_spans :
    looped.validate = .ok () ∧ scattered.validate = .ok () ∧
      (∃ plan root, JoinPlan.graph looped = .ok plan ∧ plan.Spans looped root ∧
        plan.objects.map Placement.label = ["o", "c", "p", "e"]) ∧
      ∃ root p, JoinPlan.graph scattered =
          .error (.configuration (.notConnected p.object.name p.label root.label)) ∧
        ¬ scattered.adjacency.Reachable root p ∧ p.label = "p" := by
  have hlooped : looped.validate = .ok () := rfl
  have hscattered : scattered.validate = .ok () := rfl
  refine ⟨hlooped, hscattered, ?_, ?_⟩
  · obtain ⟨root, _, _, _, hspans, _⟩ := looped.graph_spans hlooped
    have horder : (JoinPlan.graph looped).toOption.map (fun plan => plan.objects.map Placement.label) =
        some ["o", "c", "p", "e"] := by decide +kernel
    cases hplan : JoinPlan.graph looped with
    | ok plan =>
      rw [hplan] at horder
      exact ⟨plan, root, rfl, hspans plan hplan, Option.some.inj horder⟩
    | error e =>
      rw [hplan] at horder
      cases horder
  · obtain ⟨root, _, _, _, _, hunreached⟩ := scattered.graph_spans hscattered
    have hnamed : (match JoinPlan.graph scattered with
        | .error (.configuration (.notConnected _ label _)) => some label
        | _ => none) = some "p" := by decide +kernel
    cases hplan : JoinPlan.graph scattered with
    | ok plan =>
      rw [hplan] at hnamed
      cases hnamed
    | error e =>
      obtain ⟨_, p, _, _, _, hp, rfl⟩ := hunreached e hplan
      rw [hplan] at hnamed
      exact ⟨root, p, rfl, hp, Option.some.inj hnamed⟩

end Audience

end Targeting
