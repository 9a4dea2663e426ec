import Targeting.Proofs.Validity

/-!
# References in conditions

A condition refers to an alias where the alias and a dot stand and no name reaches up to them: at its front, or
behind a character that is no ASCII letter, digit or underscore. The search goes through the condition once and
finds a reference exactly if there is one, also where the alias overlaps itself or first ends a longer name. A
relationship that names an alias mentions what it names, whatever its condition refers to.

* `AtBoundary`, `StandsAt`, `RefersAt`: where a name may begin, and where a condition refers to an alias;
* **`refersToChars_iff`**: what the search finds in what it still has to go through; `refersTo_iff`;
* **`Relationship.references_exact`**.
-/

namespace Targeting

/-! ## Boundaries -/

instance : DecidablePred IsNameRest := fun _ => decidable_of_iff _ isNameChar_eq_true_iff

/-- A position up to which no name reaches: the front of a text, and what follows a character that no name
has. -/
def AtBoundary (text : List Char) : Nat → Prop
  | 0 => True
  | i + 1 => ∃ c ∈ text[i]?, ¬ IsNameRest c

instance (text : List Char) : DecidablePred (AtBoundary text)
  | 0 => inferInstanceAs (Decidable True)
  | i + 1 => Option.decidableExistsMem text[i]?

/-- A position is a boundary of a text, and the text goes on with a mark there. -/
def StandsAt (mark text : List Char) (i : Nat) : Prop := AtBoundary text i ∧ mark <+: text.drop i

instance (mark text : List Char) : DecidablePred (StandsAt mark text) := fun _ =>
  inferInstanceAs (Decidable (_ ∧ _))

/-- A condition refers to an alias at a position: the alias and a dot stand there, and no name reaches up to
them. -/
def RefersAt (condition label : String) (i : Nat) : Prop :=
  StandsAt (label ++ ".").toList condition.toList i

instance (condition label : String) : DecidablePred (RefersAt condition label) :=
  inferInstanceAs (DecidablePred (StandsAt _ _))

/-! ## The search -/

section Search

variable {mark cs : List Char} {c : Char} {i : Nat}

theorem standsAt_zero_iff : StandsAt mark cs 0 ↔ mark <+: cs := iff_of_eq (true_and _)

theorem standsAt_cons_one_iff :
    StandsAt mark (c :: cs) 1 ↔ (!isNameChar c) = true ∧ mark <+: cs := by
  simp [StandsAt, AtBoundary, ← isNameChar_eq_true_iff]

theorem standsAt_cons_iff : StandsAt mark (c :: cs) (i + 2) ↔ StandsAt mark cs (i + 1) := Iff.rfl

/-- **The search finds a mark** at the front of what it still has to go through, if that is a boundary, and at
every boundary behind. -/
theorem refersToChars_iff {boundary : Bool} : refersToChars mark boundary cs = true ↔
    boundary = true ∧ mark <+: cs ∨ ∃ i, StandsAt mark cs (i + 1) := by
  induction cs generalizing boundary with
  | nil => simp [refersToChars, StandsAt, AtBoundary]
  | cons c cs ih =>
    -- A boundary behind the front is the one after the first character, or it is behind the front of the rest.
    have hbehind : (∃ i, StandsAt mark (c :: cs) (i + 1)) ↔
        (!isNameChar c) = true ∧ mark <+: cs ∨ ∃ i, StandsAt mark cs (i + 1) :=
      calc (∃ i, StandsAt mark (c :: cs) (i + 1))
          ↔ StandsAt mark (c :: cs) 1 ∨ ∃ i, StandsAt mark (c :: cs) (i + 2) :=
            Nat.or_exists_add_one.symm
        _ ↔ (!isNameChar c) = true ∧ mark <+: cs ∨ ∃ i, StandsAt mark cs (i + 1) :=
            or_congr standsAt_cons_one_iff (exists_congr fun _ => standsAt_cons_iff)
    rw [refersToChars, Bool.or_eq_true, Bool.and_eq_true, List.isPrefixOf_iff_prefix, ih, hbehind]

end Search

theorem refersTo_iff {condition label : String} :
    refersTo condition label = true ↔ ∃ i, RefersAt condition label i := by
  have hmark : label.toList ++ ['.'] = (label ++ ".").toList := by
    rw [String.toList_append]
    rfl
  rw [refersTo, refersToChars_iff, hmark, ← standsAt_zero_iff, and_iff_right rfl]
  exact Nat.or_exists_add_one

example : ["c", "o", "co", "p"].map (refersTo "co.company_id = p.company_id") = [false, false, true, true] := by
  decide

/-! ## Relationships -/

namespace Relationship

/-- **References are found exactly where an alias and a dot stand at a boundary of names.** A relationship that
names an alias mentions what it names and nothing else, whatever its condition is, and one that names none
mentions what its condition refers to. -/
theorem references_exact :
    (∀ condition label, refersTo condition label = true ↔ ∃ i, RefersAt condition label i) ∧
      (∀ r : Relationship, r.ends ≠ [] → ∀ condition label,
        { r with condition := condition }.mentions label = true ↔ label ∈ r.ends) ∧
      ∀ r : Relationship, r.ends = [] → ∀ label,
        r.mentions label = true ↔ ∃ i, RefersAt r.condition label i := by
  refine ⟨fun _ _ => refersTo_iff, fun r h condition label => ?_, fun r h label => ?_⟩
  · have hends : { r with condition := condition }.ends ≠ [] := h
    exact mentions_iff_mem_ends hends
  · rw [mentions_eq_refersTo h]
    exact refersTo_iff

/-- A relationship that names one alias, with a condition that refers to two others. -/
def halfNamed : Relationship where
  second := some "c"
  condition := "p.company_id = q.company_id"

/-- A relationship that names no alias. Its condition has `a.a` and a dot twice, one over the other, and first
at the end of a longer name. -/
def unnamed : Relationship where
  condition := "xa.a.a.id = c.id"

/-- The condition counts only if no alias is named, and an alias is found behind a place that does not count. -/
theorem halfNamed_references_exact :
    ¬ RefersAt unnamed.condition "a.a" 1 ∧ refersTo unnamed.condition "a.a" = true ∧ unnamed.ends = [] ∧
      unnamed.mentions "a.a" = true ∧ refersTo halfNamed.condition "p" = true ∧ halfNamed.ends ≠ [] ∧
        halfNamed.mentions "p" = false ∧ halfNamed.mentions "c" = true := by
  obtain ⟨hsearch, hnamed, hunnamed⟩ := references_exact
  have hrefers : ∃ i, RefersAt unnamed.condition "a.a" i := ⟨3, by decide⟩
  have hends : halfNamed.ends ≠ [] := by decide
  have hnames := hnamed halfNamed hends halfNamed.condition
  refine ⟨by decide, (hsearch _ _).mpr hrefers, rfl, (hunnamed unnamed rfl "a.a").mpr hrefers,
    (hsearch _ _).mpr ⟨0, by decide⟩, hends, ?_, (hnames "c").mpr (by decide)⟩
  exact Bool.eq_false_iff.mpr ((hnames "p").not.mpr (by decide))

end Relationship

end Targeting
