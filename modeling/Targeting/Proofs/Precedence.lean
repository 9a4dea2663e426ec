import Targeting.Proofs.Parts
import Targeting.Proofs.Vetted
import Targeting.Sample

/-!
# Grouping by precedence

By precedence a list of filters is cut after each `OR`, and one of these segments has to hold as a
whole. The connector after the last filter cuts nothing off. Where a listing has both lists, its clause
holds exactly if both conditions do: parentheses keep an "any of" together beside another condition.

* `segmentsOf`: the segments of filters; **`Condition.holds_byPrecedence`**: the truth of the grouping;
* `SameSegments`, **`Placement.condition_last`**: the last connector;
* **`Condition.holds_conjunction`**: several conditions that hold together;
* **`Condition.read_sql`**: the text of any condition on named columns, read with precedence;
* **`precedence_groups_segments`**: lists that compile, and listings.
-/

namespace Targeting

/-- The segments of what is given for filters in order. -/
def segmentsOf {α : Type} (values : List α) (fs : List Filter) : List (List (α × Connector)) :=
  (values.zip (fs.map Filter.effectiveConnector)).splitBy joinedByAnd

namespace Condition

/-! ## The truth of a grouping by precedence -/

/-- The group of a segment. -/
def ofSegment (segment : List Tied) : Condition := group .and (segment.map Prod.fst)

theorem holds_asConjunction (c : Condition) (v : Nat → Bool) (i : Nat) :
    c.asConjunction.holds v i = c.holds v i := by
  fun_cases asConjunction c with
  | case1 cs => rfl
  | case2 c _ =>
    rw [holds, allHold, allHold]
    exact Bool.and_true _

theorem holds_byPrecedence_eq {cs : List Tied} (h : cs ≠ []) (v : Nat → Bool) (i : Nat) :
    (byPrecedence cs).holds v i = anyHolds v i ((cs.splitBy joinedByAnd).map ofSegment) := by
  have hterms : (segments cs).map (group .and) = (cs.splitBy joinedByAnd).map ofSegment := by
    rw [segments_eq_splitBy, List.map_map]
    rfl
  rw [byPrecedence, hterms]
  -- A single segment becomes an "all of" whatever it was, so that a condition alone is wrapped again.
  split
  · next hnil =>
    have hcs : cs = [] := List.splitBy_eq_nil.mp (List.map_eq_nil_iff.mp hnil)
    exact absurd hcs h
  · next c hc =>
    rw [holds_asConjunction, hc, anyHolds, anyHolds]
    exact (Bool.or_false _).symm
  · rw [holds]

/-- **A grouping by precedence holds** if there is nothing to hold, or all members of some segment
do. -/
theorem holds_byPrecedence (v : Nat → Bool) (i : Nat) (cs : List Tied) :
    (byPrecedence cs).holds v i = true ↔ cs = [] ∨
      ∃ segment ∈ (numberedTied (truthAt v) questionCount i cs).splitBy joinedByAnd,
        ∀ m ∈ segment, m.1 = true := by
  by_cases hcs : cs = []
  · subst hcs
    exact iff_of_true rfl (Or.inl rfl)
  have hgroups : numbered (truthAt v) questionCount i ((cs.splitBy joinedByAnd).map ofSegment) =
      ((numberedTied (truthAt v) questionCount i cs).splitBy joinedByAnd).map (truthUnder .and) :=
    numbered_splitBy _ _ _ (fun segment _ i => truthAt_group .and segment v i)
      (fun segment _ => questionCount_group .and segment) i cs
  rw [holds_byPrecedence_eq hcs, anyHolds_eq_numbered, hgroups, List.any_map, List.any_eq_true]
  constructor
  · rintro ⟨segment, hsegment, hall⟩
    exact Or.inr ⟨segment, hsegment, List.all_eq_true.mp hall⟩
  · rintro (hnil | ⟨segment, hsegment, hall⟩)
    · exact absurd hnil hcs
    · exact ⟨segment, hsegment, List.all_eq_true.mpr hall⟩

theorem byPrecedence_congr {cs ds : List Tied} (h : segments cs = segments ds) :
    byPrecedence cs = byPrecedence ds := by
  rw [byPrecedence, byPrecedence, h]

end Condition

/-! ## The last connector -/

theorem segments_cons_congr (t : Tied) {cs ds : List Tied} (h : segments cs = segments ds) :
    segments (t :: cs) = segments (t :: ds) := by
  obtain ⟨c, k⟩ := t
  cases k with
  | and => rw [segments, segments, h]
  | or => rw [segments, segments, h]

theorem segments_singleton (c : Condition) (k : Connector) : segments [(c, k)] = [[c]] := by
  cases k <;> rfl

/-- What two lists compile to has the same segments and the same warnings. -/
def SameSegments (x y : List Tied × List Warning) : Prop :=
  segments x.1 = segments y.1 ∧ x.2 = y.2

namespace Placement

variable (p : Placement)

theorem compileFilter_connector (strict : Bool) (path : String) (f : Filter) (k : Option Connector) :
    p.compileFilter strict path { f with connector := k } = p.compileFilter strict path f := by
  simp only [compileFilter, Filter.operatorAt, Filter.operator?]

/-- Lists that differ in the last connector fail alike, or have the same segments. -/
theorem compileFilters_last (strict : Bool) (list : String) (i : Nat) (fs : List Filter) (f : Filter)
    (k : Option Connector) :
    Agree SameSegments (p.compileFilters strict list i (fs ++ [{ f with connector := k }]))
      (p.compileFilters strict list i (fs ++ [f])) := by
  induction fs generalizing i with
  | nil =>
    rw [List.nil_append, List.nil_append, compileFilters, compileFilters, compileFilters,
      p.compileFilter_connector]
    refine .bind_same _ fun x => ?_
    have hsegments : ∀ l : Connector, segments [(x.1, l)] = [[x.1]] := segments_singleton x.1
    exact .ok ⟨(hsegments _).trans (hsegments _).symm, rfl⟩
  | cons g fs ih =>
    rw [List.cons_append, List.cons_append, compileFilters, compileFilters]
    refine .bind_same _ fun x => (ih (i + 1)).bind ?_
    rintro ⟨cs, more⟩ ⟨ds, _⟩ ⟨hsegments, rfl⟩
    exact .ok ⟨segments_cons_congr _ hsegments, rfl⟩

/-- **The last connector makes no difference by precedence**, neither to the condition of a list nor to
its warnings and errors. -/
theorem condition_last {o : CompilerSettings} (hg : o.grouping = .precedence) (list : String)
    (fs : List Filter) (f : Filter) (k : Option Connector) :
    p.condition o list (fs ++ [{ f with connector := k }]) = p.condition o list (fs ++ [f]) := by
  apply Agree.eq
  rw [condition, condition, hg]
  refine (p.compileFilters_last o.strictOperators list 0 fs f k).bind ?_
  rintro ⟨cs, ws⟩ ⟨ds, _⟩ ⟨hsegments, rfl⟩
  exact .ok (congrArg (·, ws) (Condition.byPrecedence_congr hsegments))

end Placement

/-! ## Conditions that hold together -/

namespace Condition

theorem allHold_append (v : Nat → Bool) (i : Nat) (cs ds : List Condition) :
    allHold v i (cs ++ ds) = (allHold v i cs && allHold v (i + (cs.flatMap questions).length) ds) := by
  induction cs generalizing i with
  | nil => rfl
  | cons c rest ih =>
    rw [List.cons_append, allHold, ih, allHold, Bool.and_assoc, List.flatMap_cons, List.length_append,
      Nat.add_assoc]

theorem conjuncts_append (cs ds : List Condition) :
    conjuncts (cs ++ ds) = conjuncts cs ++ conjuncts ds := by
  fun_induction conjuncts cs with
  | case1 => rfl
  | case2 es rest ih => rw [List.cons_append, conjuncts, ih, List.append_assoc]
  | case3 rest ih => rw [List.cons_append, conjuncts, ih]
  | case4 c rest hall hany ih =>
    rw [List.cons_append, conjuncts, ih, List.cons_append]
    · exact hall
    · exact hany

theorem questions_conjunction (cs : List Condition) :
    (conjunction cs).questions = cs.flatMap questions := by
  rw [questions, leaves_conjunction, List.filter_flatMap]
  rfl

/-- **Conditions put together hold if each of them does**; only an empty "any of" would get lost. -/
theorem holds_conjunction (v : Nat → Bool) (i : Nat) {cs : List Condition}
    (hs : ∀ c ∈ cs, c ≠ any []) : (conjunction cs).holds v i = allHold v i cs := by
  rw [conjunction, holds]
  fun_induction conjuncts cs generalizing i with
  | case1 => rfl
  | case2 ds rest ih =>
    rw [allHold_append, ih _ fun c hc => hs c (List.mem_cons_of_mem _ hc), allHold, holds,
      ← questions_under .and ds]
    rfl
  | case3 rest ih => exact absurd rfl (hs _ List.mem_cons_self)
  | case4 c rest _ _ ih => rw [allHold, allHold, ih _ fun c hc => hs c (List.mem_cons_of_mem _ hc)]

/-! ## Reading any condition -/

/-- **The text of a condition on named columns is read with precedence** as a formula that is as true as
the condition, whatever its operands are. -/
theorem read_sql {c : Condition} (h : c.Named) (d : Dialect) (mode : ValueMode) :
    ∃ f, Reader.read (c.sql.textWith (Sql.mark d mode) 1) = some f ∧
      f.atoms = (leafTexts (Sql.mark d mode) 1 c.questions).map tokens ∧
      ∀ v, f.holds v 0 = c.holds v 0 := by
  obtain ⟨ts, f, hf⟩ := isReadBy_sqlAt Reader.grammatical_follows h
    (fun _ _ v _ => lexesAs_isQuiet d mode v) false 1
  refine ⟨f, ?_, hf.atoms, fun v => hf.holds v 0⟩
  rw [Reader.read, sql, hf.lexes.tokens]
  exact Reader.Follows.run_eq hf.parses

/-- The grammar reads it, too, if what is written into it are scalars. -/
theorem exists_reads_sql {c : Condition} (h : c.Named) (d : Dialect) (mode : ValueMode)
    (hplain : mode = .inline → c.Plain) : ∃ f, Reads (c.sql.textWith (Sql.mark d mode) 1) f := by
  have hoperands : ∀ l ∈ c.leaves, ∀ v ∈ (leafSql l).operands,
      LexesAs IsOperand (Sql.mark d mode) v := by
    intro l hl v hv
    cases mode with
    | bound => exact lexesAs_isOperand_bound d v
    | inline => exact lexesAs_isOperand d .inline ((hplain rfl l hl).2 v hv)
  obtain ⟨ts, f, hf⟩ := isReadBy_sqlAt grammatical_parses h hoperands false 1
  refine ⟨f, ?_⟩
  rw [Reads, sql, hf.lexes.tokens]
  exact hf.parses

end Condition

/-! ## Listings -/

/-- What a listing puts together for a list stands for the condition of the list: it has no empty group,
and has nothing for a list without filters. -/
structure Condition.StandFor (cs : List Condition) (c : Condition) : Prop where
  full : ∀ e ∈ cs, e.Full
  conjuncts : conjuncts cs = conjuncts [c]
  ne_any : c ≠ .any []

namespace JoinPlan

variable {plan : JoinPlan} {a : Audience} {o : CompilerSettings} {role : Role} {fs : List Filter}
  {cs : List Condition} {ws : List Warning}

theorem condition_of_list (h : plan.condition o a role fs = .ok (cs, ws)) :
    ∃ p c, (fs ≠ [] → a.findRole o role = some p ∧ cs ≠ []) ∧
      p.condition o role.listName fs = .ok (c, ws) ∧ Condition.StandFor cs c := by
  rcases condition_eq_ok h with ⟨rfl, rfl, rfl⟩ | ⟨hfs, p, c, hp, hc, rfl⟩
  · -- No object has to be found for no filters; any would do, and the root of a plan is at hand.
    have hnil : plan.root.condition o role.listName [] = .ok (.all [], []) :=
      plan.root.condition_eq_ok_iff.mpr
        ⟨List.forall_mem_nil _, rfl, [], .nil, (Placement.AsksAll.grouped_nil o.grouping).symm⟩
    exact ⟨plan.root, .all [], fun hne => absurd rfl hne, hnil, List.forall_mem_nil _, rfl, nofun⟩
  · obtain ⟨_, _, asked, hall, rfl⟩ := p.condition_eq_ok_iff.mp hc
    have hfull := hall.full_grouped hfs o.grouping
    refine ⟨p, _, fun _ => ⟨(target_eq_ok hp).1, List.cons_ne_nil _ _⟩, hc,
      List.forall_mem_singleton.mpr hfull, rfl, fun hany => ?_⟩
    rw [hany] at hfull
    cases hfull with
    | any hne _ => exact hne rfl

end JoinPlan

/-- The clause of a listing, read with precedence, is as true as the conditions of both lists together,
each of them with its own open comparisons. -/
def Audience.ListingHolds (a : Audience) (o : CompileOptions) (fs : FilterSet) (limit : Option Nat)
    (s : Statement) : Prop :=
  ∃ plan, ∃ parent child : Placement, ∃ c d w₁ w₂ text f,
    JoinPlan.build a o.compiler.joinStrategy = .ok plan ∧
    (fs.company ≠ [] → a.findRole o.compiler .parent = some parent) ∧
    (fs.contact ≠ [] → a.findRole o.compiler .child = some child) ∧
    parent.condition o.compiler Role.parent.listName fs.company = .ok (c, w₁) ∧
    child.condition o.compiler Role.child.listName fs.contact = .ok (d, w₂) ∧
    s.sql = plan.listingHead ++ (" WHERE " ++ text) ++
      limit.elim "" (fun n => " LIMIT " ++ toString n) ∧
    Reader.read text = some f ∧
    ((o.compiler.valueMode = .inline → c.Plain ∧ d.Plain) → Reads text f) ∧
    (∀ g, Reads text g → g = f) ∧
    f.atoms = (Condition.leafTexts (Sql.mark o.dialect o.compiler.valueMode) 1
      (c.questions ++ d.questions)).map tokens ∧
    ∀ v, f.holds v 0 = (c.holds v 0 && d.holds v c.questions.length)

/-- **The clause of a listing holds exactly if the conditions of both lists do**, whatever groups they
are. -/
theorem Audience.listing_holds {a : Audience} {o : CompileOptions} {fs : FilterSet} {limit : Option Nat}
    {s : Statement} (hfs : fs.company ≠ [] ∨ fs.contact ≠ [])
    (h : a.listingStatement fs limit o = .ok s) : a.ListingHolds o fs limit s := by
  obtain ⟨plan, cs, ds, w₁, w₂, hvalid, hplan, hcs, hds, hsql⟩ := listingStatement_eq_ok h
  obtain ⟨parent, c, hparent, hc, hfor⟩ := JoinPlan.condition_of_list hcs
  obtain ⟨child, d, hchild, hd, hfor'⟩ := JoinPlan.condition_of_list hds
  have hne : cs ++ ds ≠ [] := by
    rcases hfs with hfs | hfs
    · exact List.append_ne_nil_of_left_ne_nil (hparent hfs).2 ds
    · exact List.append_ne_nil_of_right_ne_nil cs (hchild hfs).2
  have hfull : (Condition.conjunction (cs ++ ds)).Full :=
    Condition.full_conjunction hne (List.forall_mem_append.mpr ⟨hfor.full, hfor'.full⟩)
  have hconj : Condition.conjunction (cs ++ ds) = Condition.conjunction [c, d] := by
    rw [Condition.conjunction, Condition.conjuncts_append, hfor.conjuncts, hfor'.conjuncts,
      ← Condition.conjuncts_append]
    rfl
  have hany : ∀ e ∈ [c, d], e ≠ .any [] :=
    List.forall_mem_cons.mpr ⟨hfor.ne_any, List.forall_mem_singleton.mpr hfor'.ne_any⟩
  have hnamed : (Condition.conjunction (cs ++ ds)).Named :=
    JoinPlan.named_conjunction hvalid hcs hds
  rw [hfull.textWith_whereClause] at hsql
  rw [hconj] at hsql hnamed
  obtain ⟨f, hread, hatoms, hholds⟩ := Condition.read_sql hnamed o.dialect o.compiler.valueMode
  have hquestions : (Condition.conjunction [c, d]).questions = c.questions ++ d.questions := by
    rw [Condition.questions_conjunction, List.flatMap_cons, List.flatMap_singleton]
  have hgrammar : ∀ g, Reads ((Condition.conjunction [c, d]).sql.textWith
      (Sql.mark o.dialect o.compiler.valueMode) 1) g → g = f := fun g hg =>
    Option.some.inj (hg.read_eq.symm.trans hread)
  refine ⟨plan, parent, child, c, d, w₁, w₂, _, f, hplan, fun h => (hparent h).1,
    fun h => (hchild h).1, hc, hd, hsql, hread, ?_, hgrammar, ?_, fun v => ?_⟩
  · intro hplain
    have hboth : o.compiler.valueMode = .inline → (Condition.conjunction [c, d]).Plain := by
      intro hinline l hl
      rw [Condition.leaves_conjunction, List.flatMap_cons, List.flatMap_singleton] at hl
      rcases List.mem_append.mp hl with hl | hl
      · exact (hplain hinline).1 l hl
      · exact (hplain hinline).2 l hl
    obtain ⟨g, hg⟩ := Condition.exists_reads_sql hnamed o.dialect o.compiler.valueMode hboth
    rwa [hgrammar g hg] at hg
  · rw [hatoms, hquestions]
  · rw [hholds, Condition.holds_conjunction v 0 hany, Condition.allHold, Condition.allHold,
      Condition.allHold, Bool.and_true, Nat.zero_add]

/-- **By precedence filters are grouped in segments.** A list that compiles holds exactly if it is empty
or all conditions of some segment hold, and the connector of its last filter makes no difference. The
clause of a listing, read with precedence, holds exactly if the conditions of both lists do. -/
theorem precedence_groups_segments :
    (∀ (p : Placement) (o : CompilerSettings) (list : String) (fs : List Filter) (c : Condition)
        (ws : List Warning), o.grouping = .precedence → p.condition o list fs = .ok (c, ws) →
      ∃ asked, p.AsksAll fs asked ∧ c.leaves = asked.map p.leaf ∧
        ∀ v, c.holds v 0 = true ↔ fs = [] ∨
          ∃ segment ∈ segmentsOf (Condition.leafTruths v 0 (asked.map p.leaf)) fs,
            ∀ m ∈ segment, m.1 = true) ∧
      (∀ (p : Placement) (o : CompilerSettings) (list : String) (fs : List Filter) (f : Filter)
          (k : Option Connector), o.grouping = .precedence →
        p.condition o list (fs ++ [{ f with connector := k }]) = p.condition o list (fs ++ [f])) ∧
      ∀ (a : Audience) (o : CompileOptions) (fs : FilterSet) (limit : Option Nat) (s : Statement),
        fs.company ≠ [] ∨ fs.contact ≠ [] → a.listingStatement fs limit o = .ok s →
        a.ListingHolds o fs limit s := by
  refine ⟨?_, fun p o list fs f k hg => p.condition_last hg list fs f k,
    fun a o fs limit s hfs h => Audience.listing_holds hfs h⟩
  intro p o list fs c ws hg h
  obtain ⟨_, _, asked, hall, rfl⟩ := p.condition_eq_ok_iff.mp h
  have htied : p.tied fs asked = [] ↔ fs = [] := by
    constructor
    · intro htied
      by_contra hfs
      exact hall.tied_ne_nil hfs htied
    · rintro rfl
      rfl
  refine ⟨asked, hall, hall.leaves_grouped o.grouping, fun v => ?_⟩
  rw [hg, Condition.grouped, Condition.holds_byPrecedence, hall.numberedTied_truths, htied]
  rfl

/-- Filters with an `OR` in each list, the last of them with a connector to nothing. -/
def sampleSegments : FilterSet where
  company := Sample.directors.company
  contact :=
    [{ Sample.filter "job_title" .contains "Director" with connector := some .or },
      Sample.filter "seniority" .equals "VP",
      { Sample.filter "first_name" .contains "a" with connector := some .or }]

example : (segmentsOf ["a", "b", "c"] sampleSegments.contact).map (List.map Prod.fst) =
    [["a"], ["b", "c"]] := by decide

/-- The segments of the sample, in its company list and in its listing. -/
theorem sample_precedence_groups_segments :
    (∃ p c ws, Sample.audience.findRole { grouping := .precedence } .parent = some p ∧
      p.condition { grouping := .precedence } Role.parent.listName sampleSegments.company =
        .ok (c, ws) ∧
      (∃ asked, p.AsksAll sampleSegments.company asked ∧ c.leaves = asked.map p.leaf ∧
        ∀ v, c.holds v 0 = true ↔ sampleSegments.company = [] ∨
          ∃ segment ∈ segmentsOf (Condition.leafTruths v 0 (asked.map p.leaf)) sampleSegments.company,
            ∀ m ∈ segment, m.1 = true) ∧
      p.condition { grouping := .precedence } Role.parent.listName
          ([Sample.filter "country" .equals "USA"] ++
            [{ Sample.filter "industry" .equals "Software" with connector := some .or }]) =
        p.condition { grouping := .precedence } Role.parent.listName
          ([Sample.filter "country" .equals "USA"] ++ [Sample.filter "industry" .equals "Software"])) ∧
      ∃ s, Sample.audience.listingStatement sampleSegments (some 10)
          { compiler := { grouping := .precedence } } = .ok s ∧
        Sample.audience.ListingHolds { compiler := { grouping := .precedence } } sampleSegments
          (some 10) s := by
  obtain ⟨hlist, hlast, hlisting⟩ := precedence_groups_segments
  refine ⟨⟨_, _, _, rfl, rfl, ?_, ?_⟩, _, rfl, ?_⟩
  · exact hlist _ { grouping := .precedence } Role.parent.listName _ _ _ rfl rfl
  · exact hlast _ { grouping := .precedence } _ _ _ _ rfl
  · exact hlisting Sample.audience { compiler := { grouping := .precedence } } sampleSegments
      (some 10) _ (Or.inl (List.cons_ne_nil _ _)) rfl

end Targeting
