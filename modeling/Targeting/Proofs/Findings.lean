import Targeting.Proofs.Sources
import Targeting.Review

/-!
# What reviews find

A review looks at the roles, at the joins and, with filters, at the counts. It is compared with what it
foretells: a listing, counts or previews that cannot be compiled. It does not compile a listing, and
without filters it compiles nothing; so there is one reason in each case that it does not call an error.

* `Audience.Faulty`: a review finds an error; `Audience.faulty_iff`: where it looks for them;
* `Audience.Cleared`: what a review without errors has seen;
* `Error.TargetNotJoined`, `Audience.DefaultKeyUnusable`: the two reasons;
* **`Audience.listing_error_of_review`**, **`Audience.stage_error_of_review`**: without an error in the
  review, these are the only reasons;
* `Audience.Foretells`, `FailsBut`, **`Audience.review_error_iff`**: a review finds an error exactly if
  something fails for any other reason.
-/

namespace Targeting

/-! ## Errors in a review -/

namespace Audience

variable {a : Audience} {o : CompilerSettings} {fs : Option FilterSet} {e : Error}

/-- A review finds an error. -/
def Faulty (a : Audience) (o : CompilerSettings) (fs : Option FilterSet) : Prop :=
  ∃ f ∈ a.review o fs, f.level = .error

instance : Decidable (a.Faulty o fs) :=
  inferInstanceAs (Decidable (∃ f ∈ a.review o fs, f.level = .error))

theorem error_mem_reviewParts :
    (∃ f ∈ a.reviewParts o, f.level = .error) ↔ ∃ e, a.parts o = .error e := by
  unfold reviewParts
  cases a.parts o <;> simp [Finding.level]

theorem error_mem_reviewJoins : (∃ f ∈ a.reviewJoins o, f.level = .error) ↔
    ∃ e, JoinPlan.build a o.joinStrategy = .error e := by
  unfold reviewJoins
  cases JoinPlan.build a o.joinStrategy <;> simp [Finding.level]

theorem error_mem_reviewFilters {gs : FilterSet} :
    (∃ f ∈ a.reviewFilters o gs, f.level = .error) ↔ ∃ e, a.stage o gs = .error e := by
  unfold reviewFilters Audience.counts
  cases a.stage o gs <;> simp [Finding.level, Except.map]

theorem faulty_of_invalid (h : a.validate = .error e) : a.Faulty o fs := by
  refine ⟨.invalid e, ?_, rfl⟩
  unfold review
  rw [h]
  exact List.mem_singleton_self _

/-- **Where a review looks for errors** once the audience is valid. -/
theorem faulty_iff (hvalid : a.validate = .ok ()) : a.Faulty o fs ↔
    (∃ e, a.parts o = .error e) ∨ (∃ e, JoinPlan.build a o.joinStrategy = .error e) ∨
      ∃ gs, fs = some gs ∧ ∃ e, a.stage o gs = .error e := by
  rw [← error_mem_reviewParts, ← error_mem_reviewJoins, Faulty]
  unfold review
  rw [hvalid]
  cases fs with
  | none =>
    simp only [List.append_nil, List.mem_append, or_and_right, exists_or, reduceCtorEq, false_and,
      exists_false, or_false]
  | some gs =>
    simp only [List.mem_append, or_and_right, exists_or, error_mem_reviewFilters, or_assoc,
      Option.some.injEq, exists_eq_left']

theorem leftOut_mem_review (hvalid : a.validate = .ok ()) {plan : JoinPlan}
    (hplan : JoinPlan.build a o.joinStrategy = .ok plan) {p : Placement} (hp : p ∈ plan.leftOut) :
    Finding.leftOut (.leftOut p.object.name p.label) ∈ a.review o fs := by
  have hjoins : Finding.leftOut (.leftOut p.object.name p.label) ∈ a.reviewJoins o := by
    unfold reviewJoins
    rw [hplan]
    exact List.mem_cons_of_mem _ (List.mem_map_of_mem (List.mem_map_of_mem hp))
  unfold review
  rw [hvalid]
  exact List.mem_append_left _ (List.mem_append_right _ hjoins)

/-! ## Without errors in a review -/

/-- What a review without errors has seen: a valid audience with its parts and its plan, of which the
filters can be asked. -/
structure Cleared (a : Audience) (o : CompilerSettings) (fs : Option FilterSet) (parts : Parts)
    (plan : JoinPlan) : Prop where
  valid : a.validate = .ok ()
  assigned : a.parts o = .ok parts
  planned : JoinPlan.build a o.joinStrategy = .ok plan
  parent : ∃ c, parts.parent.condition o Role.parent.listName (fs.getD {}).company = .ok c
  child : ∃ c, parts.child.condition o Role.child.listName (fs.getD {}).contact = .ok c

theorem cleared_of_not_faulty (h : ¬ a.Faulty o fs) : ∃ parts plan, Cleared a o fs parts plan := by
  cases hvalid : a.validate with
  | error e => exact absurd (faulty_of_invalid hvalid) h
  | ok _ =>
    rw [faulty_iff hvalid, not_or, not_or] at h
    obtain ⟨hparts, hplan, hstage⟩ := h
    cases hps : a.parts o with
    | error e => exact absurd ⟨e, hps⟩ hparts
    | ok parts =>
      cases hpl : JoinPlan.build a o.joinStrategy with
      | error e => exact absurd ⟨e, hpl⟩ hplan
      | ok plan =>
        cases fs with
        | none => exact ⟨parts, plan, hvalid, hps, hpl, ⟨_, rfl⟩, ⟨_, rfl⟩⟩
        | some gs =>
          cases hst : a.stage o gs with
          | error e => exact absurd ⟨gs, rfl, e, hst⟩ hstage
          | ok st =>
            obtain ⟨_, hps', _, _, _, hparent, hchild, _⟩ := stage_eq_ok hst
            obtain rfl : parts = st.parts := Except.ok.inj (hps.symm.trans hps')
            exact ⟨st.parts, plan, hvalid, hps, hpl, ⟨_, hparent⟩, ⟨_, hchild⟩⟩

end Audience

/-- The filters for a role are meant for an object that is not joined. -/
def Error.TargetNotJoined (e : Error) : Prop :=
  ∃ role object label, e = .configuration (.targetNotJoined role object label)

namespace Audience

variable {a : Audience} {o : CompilerSettings} {fs : Option FilterSet} {e : Error}

/-- There are no filters to look at, and the audience relies on the join key of the settings, which is
no identifier. -/
def DefaultKeyUnusable (a : Audience) (o : CompilerSettings) (fs : Option FilterSet) (e : Error) : Prop :=
  fs = none ∧ a.joinKey = none ∧ e = .configuration (.invalidJoinKey o.defaultJoinKey)

/-- **Without an error in the review**, a listing fails only because filters are meant for an object
that is not joined. That happens only by the flat strategy, and the review tells that the object is left
out. -/
theorem listing_error_of_review (hclear : ¬ a.Faulty o fs) {limit : Option Nat}
    (h : a.listing o (fs.getD {}) limit = .error e) : o.joinStrategy = .flat ∧ ∃ role p,
      a.findRole o role = some p ∧
      e = .configuration (.targetNotJoined role p.object.name p.label) ∧
      Finding.leftOut (.leftOut p.object.name p.label) ∈ a.review o fs := by
  obtain ⟨parts, plan, hc⟩ := cleared_of_not_faulty hclear
  obtain ⟨hparent, hchild⟩ := parts_eq_ok hc.assigned
  have hfound : ∃ role p, a.findRole o role = some p ∧ plan.includes p.label = false ∧
      e = .configuration (.targetNotJoined role p.object.name p.label) := by
    rcases listing_eq_error h with h | h | ⟨plan', hplan', h⟩
    · exact nomatch hc.valid.symm.trans h
    · exact nomatch hc.planned.symm.trans h
    obtain rfl : plan = plan' := Except.ok.inj (hc.planned.symm.trans hplan')
    rcases h with h | h
    · obtain ⟨c, hcond⟩ := hc.parent
      exact ⟨.parent, _, hparent, JoinPlan.condition_eq_error hparent hcond h⟩
    · obtain ⟨c, hcond⟩ := hc.child
      exact ⟨.child, _, hchild, JoinPlan.condition_eq_error hchild hcond h⟩
  obtain ⟨role, p, hp, hin, he⟩ := hfound
  have hout : p ∈ plan.leftOut := by
    have hmem := (JoinPlan.perm_build hc.valid hc.planned).mem_iff.mpr (mem_of_findRole hp)
    rcases List.mem_append.mp hmem with hobject | hout
    · exact absurd (decide_eq_true rfl) (List.any_eq_false.mp hin p hobject)
    · exact hout
  refine ⟨?_, role, p, hp, he, leftOut_mem_review hc.valid hc.planned hout⟩
  cases hstrategy : o.joinStrategy with
  | flat => rfl
  | graph =>
    have hplan := hc.planned
    rw [hstrategy] at hplan
    rw [JoinPlan.leftOut_of_graph hc.valid hplan] at hout
    cases hout

/-- **Without an error in the review**, a stage fails only because of the default join key. -/
theorem stage_error_of_review (hclear : ¬ a.Faulty o fs) (h : a.stage o (fs.getD {}) = .error e) :
    a.DefaultKeyUnusable o fs e := by
  obtain ⟨parts, plan, hc⟩ := cleared_of_not_faulty hclear
  have hnone : fs = none := by
    cases fs with
    | none => rfl
    | some gs => exact absurd ((faulty_iff hc.valid).mpr (Or.inr (Or.inr ⟨gs, rfl, e, h⟩))) hclear
  rcases stage_eq_error h with h | h | h | ⟨parts', hparts', h⟩
  · exact nomatch hc.valid.symm.trans h
  · exact nomatch hc.assigned.symm.trans h
  · exact ⟨hnone, key_eq_error hc.valid h⟩
  obtain rfl : parts = parts' := Except.ok.inj (hc.assigned.symm.trans hparts')
  rcases h with h | h
  · obtain ⟨c, hcond⟩ := hc.parent
    exact nomatch hcond.symm.trans h
  · obtain ⟨c, hcond⟩ := hc.child
    exact nomatch hcond.symm.trans h

/-! ## Reviews and compilations -/

/-- A review foretells all compilations: it finds an error exactly if one of them fails. -/
def Foretells (a : Audience) (o : CompileOptions) (fs : Option FilterSet)
    (limit requested : Option Nat) : Prop :=
  a.Faulty o.compiler fs ↔ (∃ e, a.listingStatement (fs.getD {}) limit o = .error e) ∨
    (∃ e, a.countsStatement (fs.getD {}) o = .error e) ∨
    ∃ e, a.previews o.compiler (fs.getD {}) requested = .error e

/-- The sample without a relationship by which the contacts could be joined. -/
def unjoined : Audience := { Sample.audience with relationships := [] }

/-- The sample without a join key of its own. -/
def keyless : Audience := { Sample.audience with joinKey := none }

/-- Settings with a join key that is no identifier. -/
def wordyKey : CompileOptions := { compiler := { defaultJoinKey := "company id" } }

theorem unjoined_not_faulty : ¬ unjoined.Faulty {} (some Sample.directors) := by decide +kernel

theorem keyless_not_faulty : ¬ keyless.Faulty wordyKey.compiler none := by decide +kernel

/-- A review does not foretell that filters are meant for contacts that are not joined, and without
filters it does not foretell that the join key of the settings is unusable. -/
theorem unjoined_not_foretells :
    ¬ unjoined.Foretells {} (some Sample.directors) none none ∧
      ¬ keyless.Foretells wordyKey none none none := by
  constructor
  · intro h
    exact unjoined_not_faulty (h.mpr (Or.inl ⟨_, rfl⟩))
  · intro h
    exact keyless_not_faulty (h.mpr (Or.inr (Or.inl ⟨_, rfl⟩)))

/-- A computation fails, and not for a reason that is excused. -/
def FailsBut {α : Type} (excused : Error → Prop) (x : Except Error α) : Prop :=
  ∃ e, x = .error e ∧ ¬ excused e

section

variable (a : Audience) (o : CompileOptions) (fs : Option FilterSet) (limit requested : Option Nat)

theorem listingStatement_eq_error {gs : FilterSet} {e : Error} :
    a.listingStatement gs limit o = .error e ↔ a.listing o.compiler gs limit = .error e :=
  map_eq_error_iff.trans map_eq_error_iff.symm

theorem countsStatement_eq_error {gs : FilterSet} {e : Error} :
    a.countsStatement gs o = .error e ↔ a.stage o.compiler gs = .error e :=
  map_eq_error_iff

theorem previews_eq_error {gs : FilterSet} {e : Error} :
    a.previews o.compiler gs requested = .error e ↔ a.stage o.compiler gs = .error e :=
  map_eq_error_iff

theorem failsBut_of_invalid {e : Error} (h : a.validate = .error e) :
    FailsBut Error.TargetNotJoined (a.listingStatement (fs.getD {}) limit o) ∨
      FailsBut (a.DefaultKeyUnusable o.compiler fs) (a.countsStatement (fs.getD {}) o) := by
  have hlisting : a.listing o.compiler (fs.getD {}) limit = .error e :=
    map_eq_error_iff.mpr (bind_eq_error_iff.mpr (Or.inl h))
  have hstage : a.stage o.compiler (fs.getD {}) = .error e := bind_eq_error_iff.mpr (Or.inl h)
  -- Nothing is an error of both kinds, so one of the two failures is not excused.
  by_cases htarget : e.TargetNotJoined
  · refine Or.inr ⟨e, (a.countsStatement_eq_error o).mpr hstage, ?_⟩
    rintro ⟨_, _, rfl⟩
    obtain ⟨_, _, _, he⟩ := htarget
    cases he
  · exact Or.inl ⟨e, (a.listingStatement_eq_error o limit).mpr hlisting, htarget⟩

theorem failsBut_of_faulty (h : a.Faulty o.compiler fs) :
    FailsBut Error.TargetNotJoined (a.listingStatement (fs.getD {}) limit o) ∨
      FailsBut (a.DefaultKeyUnusable o.compiler fs) (a.countsStatement (fs.getD {}) o) := by
  cases hvalid : a.validate with
  | error e => exact a.failsBut_of_invalid o fs limit hvalid
  | ok _ =>
    rcases (faulty_iff hvalid).mp h with ⟨e, hparts⟩ | ⟨e, hplan⟩ | ⟨gs, rfl, e, hstage⟩
    · have hstage : a.stage o.compiler (fs.getD {}) = .error e :=
        bind_eq_error_iff.mpr (Or.inr ⟨(), hvalid, bind_eq_error_iff.mpr (Or.inl hparts)⟩)
      refine Or.inr ⟨e, (a.countsStatement_eq_error o).mpr hstage, ?_⟩
      rintro ⟨_, _, he⟩
      rcases parts_eq_error hparts with ⟨_, rfl⟩ | ⟨_, rfl⟩ <;> cases he
    · have hlisting : a.listing o.compiler (fs.getD {}) limit = .error e := map_eq_error_iff.mpr
        (bind_eq_error_iff.mpr (Or.inr ⟨(), hvalid, bind_eq_error_iff.mpr (Or.inl hplan)⟩))
      refine Or.inl ⟨e, (a.listingStatement_eq_error o limit).mpr hlisting, ?_⟩
      rintro ⟨_, _, _, he⟩
      rcases JoinPlan.build_eq_error hplan with rfl | ⟨_, _, _, rfl⟩ <;> cases he
    · refine Or.inr ⟨e, (a.countsStatement_eq_error o).mpr hstage, ?_⟩
      rintro ⟨hnone, _⟩
      cases hnone

/-- **A review finds an error exactly if a compilation fails** for any reason but these: the filters for
a role are meant for an object that is not joined, which a listing wants; or, where there are no filters
to look at, the join key of the settings is unusable, which counts and previews want. In the first case
a review without errors still warns that the object is left out. -/
theorem review_error_iff :
    (a.Faulty o.compiler fs ↔
        FailsBut Error.TargetNotJoined (a.listingStatement (fs.getD {}) limit o) ∨
        FailsBut (a.DefaultKeyUnusable o.compiler fs) (a.countsStatement (fs.getD {}) o) ∨
        FailsBut (a.DefaultKeyUnusable o.compiler fs) (a.previews o.compiler (fs.getD {}) requested)) ∧
      ∀ e, ¬ a.Faulty o.compiler fs → a.listingStatement (fs.getD {}) limit o = .error e →
        o.compiler.joinStrategy = .flat ∧ ∃ role p, a.findRole o.compiler role = some p ∧
          e = .configuration (.targetNotJoined role p.object.name p.label) ∧
          Finding.leftOut (.leftOut p.object.name p.label) ∈ a.review o.compiler fs := by
  have hlisting : ∀ e, ¬ a.Faulty o.compiler fs →
      a.listingStatement (fs.getD {}) limit o = .error e → _ := fun e hclear h =>
    listing_error_of_review hclear ((a.listingStatement_eq_error o limit).mp h)
  refine ⟨⟨fun h => ?_, fun h => ?_⟩, hlisting⟩
  · exact (a.failsBut_of_faulty o fs limit h).imp id Or.inl
  · by_contra hclear
    rcases h with ⟨e, he, hbut⟩ | ⟨e, he, hbut⟩ | ⟨e, he, hbut⟩
    · obtain ⟨_, role, p, _, htarget, _⟩ := hlisting e hclear he
      exact hbut ⟨role, _, _, htarget⟩
    · exact hbut (stage_error_of_review hclear ((a.countsStatement_eq_error o).mp he))
    · exact hbut (stage_error_of_review hclear ((a.previews_eq_error o requested).mp he))

end

/-- The contacts that are not joined are reported as left out, and nothing else is wrong. -/
theorem unjoined_review_error_iff : ¬ unjoined.Faulty {} (some Sample.directors) ∧
    ∃ (role : Role) (p : Placement), unjoined.listingStatement Sample.directors none {} =
        .error (.configuration (.targetNotJoined role p.object.name p.label)) ∧
      Finding.leftOut (.leftOut p.object.name p.label) ∈
        unjoined.review {} (some Sample.directors) := by
  obtain ⟨e, he⟩ : ∃ e, unjoined.listingStatement Sample.directors none {} = .error e := ⟨_, rfl⟩
  obtain ⟨_, role, p, _, rfl, hleftOut⟩ :=
    (unjoined.review_error_iff {} (some Sample.directors) none none).2 e unjoined_not_faulty he
  exact ⟨unjoined_not_faulty, role, p, he, hleftOut⟩

end Audience

end Targeting
