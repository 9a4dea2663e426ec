import Targeting.Proofs.CountCells
import Targeting.Proofs.WholeDoubles

/-!
# Integers beyond 63 bits

An integer that has 64 bits without sign, but not with one, is turned into the nearest double, a multiple of
2048. That is written with its shortest digits, which are those of some integer that has the same double: one
with the most zeros at its end. A multiple of a thousand always lies close enough; of ten thousand there is one
at most.

* `IsLarge`, `nearestDouble`, `is_nearestDouble`: these integers and their doubles;
* `exists_midpoints`, `bounds_of_near`, `near_of_close`: what is rounded to them; `SameDouble`,
  `sameDouble_iff`;
* `exists_candidate`: the grid on which the digits are found;
* `ShortestFor`, **`exists_shortestFor`**, **`ShortestFor.unique`**: the integer that is written.
-/

namespace Targeting

open Binary64 Scientific

/-! ## Their doubles -/

theorem roundEven_mul (u d : Nat) {c : Nat} (hc : 0 < c) : roundEven (u * c) (d * c) = roundEven u d := by
  unfold roundEven
  simp only [Nat.mul_div_mul_right _ _ hc, Nat.mul_mod_mul_right, ← Nat.mul_assoc,
    Nat.mul_lt_mul_right hc]

/-- An integer of 64 bits without sign that has more than 63 bits. -/
def IsLarge (n : Nat) : Prop := 9223372036854775808 ≤ n ∧ n < 18446744073709551616

/-- The double nearest to a large integer, which is a multiple of 2048. -/
def nearestDouble (n : Nat) : Nat := 2048 * roundEven n 2048

theorem twoTo_1085 : twoTo 1085 = 2048 * twoTo 1074 := by
  rw [show 1085 = 11 + 1074 by decide, twoTo_add, show twoTo 11 = 2048 by decide]

theorem twoTo_1084 : twoTo 1084 = 1024 * twoTo 1074 := by
  rw [show 1084 = 10 + 1074 by decide, twoTo_add, show twoTo 10 = 1024 by decide]

variable {n : Nat}

theorem roundEven_bounds (h : IsLarge n) :
    twoTo 52 ≤ roundEven n 2048 ∧ roundEven n 2048 ≤ 2 * twoTo 52 := by
  have hpower : twoTo 52 = 4503599627370496 := by decide
  have hlow := div_le_roundEven n 2048
  have hhigh := roundEven_le n 2048
  obtain ⟨hleast, hgreatest⟩ := h
  rw [hpower]
  omega

theorem rankOfRatio_large (h : IsLarge n) :
    rankOfRatio n 1 = 1085 * twoTo 52 + roundEven n 2048 := by
  have hpower : twoTo 52 = 4503599627370496 := by decide
  have hround : roundEven (n * twoTo 1074) (1 * twoTo 1085) = roundEven n 2048 := by
    rw [twoTo_1085, Nat.one_mul, roundEven_mul n 2048 (twoTo_pos 1074)]
  rw [rankOfRatio_eq_iff Nat.one_pos, ← hround]
  refine near_of_binade Nat.one_pos (Or.inr ?_) ?_
  · rw [twoTo_1085, Nat.one_mul, ← Nat.mul_assoc]
    exact Nat.mul_le_mul_right _ (by rw [hpower]; exact h.1)
  · rw [twoTo_1085, Nat.one_mul, ← Nat.mul_assoc]
    exact Nat.mul_lt_mul_of_pos_right (by rw [hpower]; exact h.2) (twoTo_pos 1074)

theorem unitsOfRank_large (h : IsLarge n) :
    unitsOfRank (rankOfRatio n 1) = nearestDouble n * twoTo 1074 := by
  obtain ⟨hlow, hhigh⟩ := roundEven_bounds h
  rw [rankOfRatio_large h, unitsOfRank_binade (Or.inr hlow) hhigh, twoTo_1085, nearestDouble]
  ring

/-- The midpoints around the double of a large integer. -/
theorem exists_midpoints (h : IsLarge n) : ∃ below above,
    unitsOfRank (rankOfRatio n 1 - 1) + unitsOfRank (rankOfRatio n 1) = below * twoTo 1074 ∧
      unitsOfRank (rankOfRatio n 1) + unitsOfRank (rankOfRatio n 1 + 1) = above * twoTo 1074 ∧
      2 * nearestDouble n ≤ below + 2048 ∧ below + 1024 ≤ 2 * nearestDouble n ∧
      2 * nearestDouble n + 2048 ≤ above ∧ above ≤ 2 * nearestDouble n + 4096 := by
  obtain ⟨hlow, hhigh⟩ := roundEven_bounds h
  have hpos := twoTo_pos 52
  rw [unitsOfRank_large h, rankOfRatio_large h, unitsOfRank_next (Or.inr hlow) hhigh, twoTo_1085]
  unfold nearestDouble
  generalize roundEven n 2048 = q at hlow hhigh ⊢
  have habove : 2048 * q * twoTo 1074 + (q + if q = 2 * twoTo 52 then 2 else 1) * (2048 * twoTo 1074) =
      (4096 * q + if q = 2 * twoTo 52 then 4096 else 2048) * twoTo 1074 := by
    split <;> ring
  by_cases hstart : q = twoTo 52
  · subst hstart
    refine ⟨4 * 1024 * twoTo 52 - 1024, _, ?_, habove, ?_⟩
    · rw [unitsOfRank_before 1084, twoTo_1084]
      obtain ⟨p, hp⟩ : ∃ p, twoTo 52 = p + 1 := ⟨twoTo 52 - 1, by omega⟩
      rw [hp, show 2 * (p + 1) - 1 = 2 * p + 1 by omega,
        show 4 * 1024 * (p + 1) - 1024 = 4096 * p + 3072 by omega]
      ring
    · split <;> omega
  · refine ⟨4096 * q - 2048, _, ?_, habove, ?_⟩
    · rw [unitsOfRank_previous (Or.inr (by omega)) hhigh, twoTo_1085]
      obtain ⟨p, rfl⟩ : ∃ p, q = p + 1 := ⟨q - 1, by omega⟩
      rw [Nat.add_sub_cancel, show 4096 * (p + 1) - 2048 = 4096 * p + 2048 by omega]
      ring
    · split <;> omega

/-- What is rounded to the double of a large integer lies in its surroundings. -/
theorem bounds_of_near (h : IsLarge n) {m : Nat} (hm : Near (rankOfRatio n 1) m 1) :
    nearestDouble n ≤ m + 1024 ∧ m ≤ nearestDouble n + 2048 := by
  obtain ⟨below, above, hbelow, habove, hb, -, -, ha⟩ := exists_midpoints h
  obtain ⟨hlow, hhigh, -⟩ := hm
  rw [Nat.mul_one, hbelow, ← Nat.mul_assoc] at hlow
  rw [Nat.mul_one, habove, ← Nat.mul_assoc] at hhigh
  have hlow := Nat.le_of_mul_le_mul_right hlow (twoTo_pos 1074)
  have hhigh := Nat.le_of_mul_le_mul_right hhigh (twoTo_pos 1074)
  omega

/-- All integers close to the double of a large integer are rounded to it. -/
theorem near_of_close (h : IsLarge n) {m : Nat} (hlow : nearestDouble n ≤ m + 500)
    (hhigh : m ≤ nearestDouble n + 500) : Near (rankOfRatio n 1) m 1 := by
  obtain ⟨below, above, hbelow, habove, -, hb, ha, -⟩ := exists_midpoints h
  have hlt : below * twoTo 1074 < 2 * (m * twoTo 1074) := by
    rw [← Nat.mul_assoc]
    exact Nat.mul_lt_mul_of_pos_right (by omega) (twoTo_pos 1074)
  have hgt : 2 * (m * twoTo 1074) < above * twoTo 1074 := by
    rw [← Nat.mul_assoc]
    exact Nat.mul_lt_mul_of_pos_right (by omega) (twoTo_pos 1074)
  unfold Near
  simp only [Nat.mul_one, hbelow, habove]
  exact ⟨hlt.le, hgt.le, fun _ => ⟨hlt, hgt⟩⟩

theorem nearestDouble_bounds (h : IsLarge n) :
    9223372036854775808 ≤ nearestDouble n ∧ nearestDouble n ≤ 18446744073709551616 := by
  have hpower : twoTo 52 = 4503599627370496 := by decide
  have hbounds := roundEven_bounds h
  rw [hpower] at hbounds
  unfold nearestDouble
  omega

/-- There is one multiple of ten thousand at most that is rounded to the double. -/
theorem eq_of_near (h : IsLarge n) {l m : Nat} (hl : Near (rankOfRatio n 1) l 1)
    (hm : Near (rankOfRatio n 1) m 1) (hzeros : 10000 ∣ l) (hzeros' : 10000 ∣ m) : l = m := by
  have hbounds := bounds_of_near h hl
  have hbounds' := bounds_of_near h hm
  omega

theorem rank_lt (h : IsLarge n) : rankOfRatio n 1 < rankCount :=
  rankOfRatio_lt (show n < twoTo 64 from h.2)

theorem ofInt_natCast (m : Nat) : ofInt m =
    if h : rankOfRatio m 1 < rankCount then .finite ⟨false, rankOfRatio m 1, h⟩ else .infinite false := by
  have hsign : decide ((m : Int) < 0) = false := decide_eq_false (by omega)
  rw [ofInt, hsign, Int.natAbs_natCast]
  rfl

theorem ofInt_large (h : IsLarge n) : ofInt n = .finite ⟨false, rankOfRatio n 1, rank_lt h⟩ := by
  rw [ofInt_natCast, dif_pos (rank_lt h)]

/-- The double nearest to a large integer is the whole number that it is said to be. -/
theorem is_nearestDouble (h : IsLarge n) : ∃ x, ofInt n = .finite x ∧ x.Is (nearestDouble n) := by
  refine ⟨_, ofInt_large h, ?_⟩
  unfold Finite.Is
  simp only [Bool.false_eq_true, if_false, Finite.units, unitsOfRank_large h]
  exact Int.natCast_mul _ _

/-- Two whole numbers are rounded to one double. -/
def SameDouble (n m : Nat) : Prop := ofInt m = ofInt n

theorem sameDouble_iff (h : IsLarge n) {m : Nat} : SameDouble n m ↔ Near (rankOfRatio n 1) m 1 := by
  rw [SameDouble, ofInt_large h, ofInt_natCast, ← rankOfRatio_eq_iff Nat.one_pos]
  split
  · simp
  · next hlarge =>
    refine iff_of_false nofun fun hrank => hlarge ?_
    rw [hrank]
    exact rank_lt h

/-! ## Their shortest decimals -/

/-- A double has 19 or 20 digits. -/
theorem digitCount_bounds (h : IsLarge n) :
    19 ≤ digitCount (nearestDouble n) ∧ digitCount (nearestDouble n) ≤ 20 := by
  obtain ⟨hleast, hgreatest⟩ := nearestDouble_bounds h
  have hmost : digitCount (nearestDouble n) ≤ 20 ↔ nearestDouble n < 10 ^ 20 :=
    Nat.length_toDigits_le_iff (by decide) (by decide)
  have hfewest : digitCount (nearestDouble n) ≤ 18 ↔ nearestDouble n < 10 ^ 18 :=
    Nat.length_toDigits_le_iff (by decide) (by decide)
  omega

/-- The multiple of a thousand that is nearest to the double is rounded to it. -/
theorem near_thousands (h : IsLarge n) :
    Near (rankOfRatio n 1) ((nearestDouble n + 500) / 1000 * 1000) 1 :=
  near_of_close h (by omega) (by omega)

theorem findSome?_range_eq_some {α : Type} {f : Nat → Option α} {k : Nat} {b : α}
    (h : (List.range k).findSome? f = some b) : ∃ i, f i = some b ∧ ∀ j < i, f j = none := by
  induction k with
  | zero => cases h
  | succ k ih =>
    rw [List.range_succ, List.findSome?_append] at h
    cases hfirst : (List.range k).findSome? f with
    | some c =>
      rw [hfirst, Option.some_or] at h
      exact ih (hfirst.trans h)
    | none =>
      rw [hfirst, Option.none_or] at h
      refine ⟨k, by simpa using h, fun j hj => ?_⟩
      exact List.findSome?_eq_none_iff.mp hfirst j (List.mem_range.mpr hj)

/-- The grid that is the first with a candidate: it is that of the thousands or a coarser one. -/
theorem exists_candidate (h : IsLarge n) : ∃ i k, i + 4 ≤ digitCount (nearestDouble n) ∧
    candidate .up (rankOfRatio n 1) (i + 1) = some k ∧
    (∀ j < i, candidate .up (rankOfRatio n 1) (j + 1) = none) ∧
    ofRank .up (rankOfRatio n 1) = ofGrid (rankOfRatio n 1) (i + 1) k := by
  obtain ⟨hcount, hcount'⟩ := digitCount_bounds h
  have hpos : 0 < nearestDouble n := Nat.lt_of_lt_of_le (by decide) (nearestDouble_bounds h).1
  obtain ⟨last, hlast⟩ : ∃ last, digitCount (nearestDouble n) = last + 4 :=
    ⟨digitCount (nearestDouble n) - 4, by omega⟩
  have hthousands : candidate .up (rankOfRatio n 1) (last + 1) ≠ none := by
    intro hnone
    have hnot := not_near_of_candidate (unitsOfRank_large h) hpos (by omega) (by omega) hnone
    rw [hlast, show last + 4 - (last + 1) = 3 by omega] at hnot
    exact hnot _ (near_thousands h)
  unfold ofRank
  simp only
  cases htries : (List.range 17).findSome? fun i =>
      (candidate .up (rankOfRatio n 1) (i + 1)).map (ofGrid (rankOfRatio n 1) (i + 1)) with
  | none =>
    have hnone := List.findSome?_eq_none_iff.mp htries last (List.mem_range.mpr (by omega))
    exact absurd (Option.map_eq_none_iff.mp hnone) hthousands
  | some x =>
    obtain ⟨i, hi, hfirst⟩ := findSome?_range_eq_some htries
    obtain ⟨k, hk, rfl⟩ := Option.map_eq_some_iff.mp hi
    have hnone : ∀ j < i, candidate .up (rankOfRatio n 1) (j + 1) = none := fun j hj =>
      Option.map_eq_none_iff.mp (hfirst j hj)
    refine ⟨i, k, ?_, hk, hnone, rfl⟩
    by_contra hlate
    exact hthousands (hnone last (by omega))

theorem tenTo_dvd {i j : Nat} (h : i ≤ j) : tenTo i ∣ tenTo j := Nat.pow_dvd_pow 10 h

/-- A whole number is the shortest decimal of the double of another one: of all that are rounded to this
double, it has the most zeros at its end, and is the nearest to the double of those with as many. -/
structure ShortestFor (n m : Nat) : Prop where
  double : ∃ x, ofInt n = .finite x ∧ x.Is (nearestDouble n)
  same : SameDouble n m
  shortest : ∀ l, SameDouble n l → ∀ k, tenTo k ∣ l → tenTo k ∣ m
  nearest : ∀ l, SameDouble n l → (∀ k, tenTo k ∣ m → tenTo k ∣ l) →
    away (nearestDouble n) m ≤ away (nearestDouble n) l

/-- **The digits of the double of a large integer** are those of its shortest decimal. -/
theorem exists_shortestFor (h : IsLarge n) : ∃ m, ShortestFor n m ∧
    Style.plain.layOut (ofRank .up (rankOfRatio n 1)) = Nat.toDigits 10 m := by
  obtain ⟨i, k, hi, hk, hnone, hrank⟩ := exists_candidate h
  have hcount := (digitCount_bounds h).1
  have hunits := unitsOfRank_large h
  have hpos : 0 < nearestDouble n := Nat.lt_of_lt_of_le (by decide) (nearestDouble_bounds h).1
  obtain ⟨hnear, hnearest⟩ := nearest_of_candidate hunits hpos (by omega) (by omega) hk
  obtain ⟨j, hj⟩ : ∃ j, digitCount (nearestDouble n) - (i + 1) = j := ⟨_, rfl⟩
  have hkpos : 0 < k := by
    rcases Nat.eq_zero_or_pos k with rfl | hkpos
    · have := (bounds_of_near h hnear).1
      have := (nearestDouble_bounds h).1
      omega
    · exact hkpos
  have hdigits := layOut_ofGrid (n := i + 1) hunits hpos (by omega) (by omega) hkpos
  rw [hj] at hnear hnearest hdigits
  refine ⟨k * tenTo j, ⟨is_nearestDouble h, (sameDouble_iff h).mpr hnear, fun l hl e hzeros => ?_,
    fun l hl hzeros => ?_⟩, hrank ▸ hdigits⟩
  · have hl := (sameDouble_iff h).mp hl
    rcases Nat.lt_or_ge j e with he | he
    · have hlzeros : 10000 ∣ l := (tenTo_dvd (show 4 ≤ e by omega)).trans hzeros
      rcases Nat.lt_or_ge 3 j with hcoarse | hfine
      · -- One multiple of ten thousand is all there is.
        have hmzeros : 10000 ∣ k * tenTo j := (tenTo_dvd hcoarse).trans (Nat.dvd_mul_left _ _)
        rwa [← eq_of_near h hl hnear hlzeros hmzeros]
      · -- The grid of the ten thousands has been tried in vain.
        obtain ⟨i, rfl⟩ : ∃ before, i = before + 1 := ⟨i - 1, by omega⟩
        have hnot := not_near_of_candidate hunits hpos (by omega) (by omega) (hnone i (Nat.lt_succ_self i))
        obtain ⟨c, rfl⟩ := hlzeros
        rw [show digitCount (nearestDouble n) - (i + 1) = 4 by omega] at hnot
        exact absurd (by rwa [Nat.mul_comm] at hl) (hnot c)
    · exact (tenTo_dvd he).trans (Nat.dvd_mul_left _ _)
  · obtain ⟨c, rfl⟩ := hzeros j (Nat.dvd_mul_left _ _)
    rw [sameDouble_iff h, Nat.mul_comm (tenTo j)] at hl
    rw [Nat.mul_comm (tenTo j)]
    exact hnearest c hl

/-- **There is one shortest decimal only.** -/
theorem ShortestFor.unique (h : IsLarge n) {l m : Nat} (hl : ShortestFor n l) (hm : ShortestFor n m) :
    l = m := by
  have hzeros : ∀ k, tenTo k ∣ l ↔ tenTo k ∣ m := fun k =>
    ⟨hm.shortest l hl.same k, hl.shortest m hm.same k⟩
  have haway : away (nearestDouble n) l = away (nearestDouble n) m :=
    Nat.le_antisymm (hl.nearest m hm.same fun k => (hzeros k).mp) (hm.nearest l hl.same fun k => (hzeros k).mpr)
  by_cases hcoarse : 10000 ∣ l
  · exact eq_of_near h ((sameDouble_iff h).mp hl.same) ((sameDouble_iff h).mp hm.same) hcoarse
      ((hzeros 4).mp hcoarse)
  · have hthousands : 1000 ∣ l :=
      hl.shortest _ ((sameDouble_iff h).mpr (near_thousands h)) 3 (Nat.dvd_mul_left _ _)
    have hthousands' : 1000 ∣ m := (hzeros 3).mp hthousands
    have hdouble : 2048 ∣ nearestDouble n := Nat.dvd_mul_right _ _
    by_contra hne
    -- Both are equally far from the double, one below and one above, so it is a multiple of a thousand.
    have hself : 1000 ∣ nearestDouble n := by
      unfold away at haway
      omega
    have hnearest := hl.nearest (nearestDouble n)
      ((sameDouble_iff h).mpr (near_self (unitsOfRank_large h))) fun k hk => by
        rcases Nat.lt_or_ge 3 k with hk' | hk'
        · exact absurd ((tenTo_dvd hk').trans hk) hcoarse
        · exact (tenTo_dvd hk').trans hself
    unfold away at hnearest haway
    omega

end Targeting
