import Mathlib.Order.Monotone.Basic
import Mathlib.Tactic.Ring
import Targeting.Proofs.Operand

/-!
# Rounding to the nearest double

The doubles between two powers of two lie equally far from each other, and where one such range ends the next
one goes on. So they increase with their ranks, and the ratios that are rounded to a double are those between
the midpoints to its neighbours: the midpoints themselves are rounded to the double whose rank is even.

* `unitsOfRank_binade`, `exists_binade`: the doubles of one range; **`strictMono_unitsOfRank`**;
* `unitsOfRank_next`, `unitsOfRank_previous`: the neighbours of a double; `sum_above`, `sum_below`: the
  midpoints to them;
* `roundEven_spec`: the nearest natural number;
* `Near`, **`rankOfRatio_eq_iff`**: what is rounded to a double.
-/

namespace Targeting.Binary64

/-! ## Doubles in order -/

/-- The double that is `m` times the distance of the doubles in a range, up to the end of the range. -/
theorem unitsOfRank_binade {s m : Nat} (hlow : s = 0 ∨ twoTo 52 ≤ m) (hhigh : m ≤ 2 * twoTo 52) :
    unitsOfRank (s * twoTo 52 + m) = m * twoTo s := by
  have hpos := twoTo_pos 52
  unfold unitsOfRank
  simp only
  generalize twoTo 52 = p at hlow hhigh hpos ⊢
  rcases Nat.lt_or_ge m p with hsmall | hlarge
  · obtain rfl : s = 0 := hlow.resolve_right (Nat.not_le.mpr hsmall)
    rw [Nat.zero_mul, Nat.zero_add, Nat.div_eq_of_lt hsmall, if_pos rfl, Nat.mod_eq_of_lt hsmall,
      twoTo_zero, Nat.mul_one]
  · rcases Nat.lt_or_ge m (2 * p) with hinside | hend
    · have hsplit : s * p + m = (m - p) + (s + 1) * p := by
        rw [Nat.add_mul, Nat.one_mul]
        omega
      have hrest : m - p < p := by omega
      rw [hsplit, Nat.add_mul_div_right _ _ hpos, Nat.add_mul_mod_self_right, Nat.div_eq_of_lt hrest,
        Nat.mod_eq_of_lt hrest, if_neg (by omega)]
      congr 1
      · omega
      · congr 1
        omega
    · obtain rfl : m = 2 * p := Nat.le_antisymm hhigh hend
      have hsplit : s * p + 2 * p = 0 + (s + 2) * p := by rw [Nat.add_mul, Nat.zero_add]
      have hexponent : 0 + (s + 2) - 1 = s + 1 := by omega
      rw [hsplit, Nat.add_mul_div_right _ _ hpos, Nat.add_mul_mod_self_right, Nat.zero_div,
        Nat.zero_mod, if_neg (by omega), hexponent, twoTo_succ s]
      ring

/-- Every double lies in one of the ranges. -/
theorem exists_binade (r : Nat) :
    ∃ s m, r = s * twoTo 52 + m ∧ (s = 0 ∨ twoTo 52 ≤ m) ∧ m < 2 * twoTo 52 := by
  have hpos := twoTo_pos 52
  generalize twoTo 52 = p at hpos ⊢
  have hsplit := Nat.div_add_mod' r p
  have hrest := Nat.mod_lt r hpos
  cases hs : r / p with
  | zero =>
    rw [hs, Nat.zero_mul] at hsplit
    exact ⟨0, r, by omega, Or.inl rfl, by omega⟩
  | succ s =>
    rw [hs, Nat.add_mul, Nat.one_mul] at hsplit
    exact ⟨s, p + r % p, by omega, Or.inr (Nat.le_add_right p _), by omega⟩

/-- **Doubles increase with their ranks.** -/
theorem strictMono_unitsOfRank : StrictMono unitsOfRank := by
  refine strictMono_nat_of_lt_succ fun r => ?_
  obtain ⟨s, m, rfl, hlow, hhigh⟩ := exists_binade r
  rw [unitsOfRank_binade hlow hhigh.le, Nat.add_assoc, unitsOfRank_binade (by omega) hhigh]
  exact Nat.mul_lt_mul_of_pos_right (Nat.lt_succ_self m) (twoTo_pos s)

variable {s q : Nat}

/-- The next double: at the end of a range it is twice as far. -/
theorem unitsOfRank_next (hlow : s = 0 ∨ twoTo 52 ≤ q) (hhigh : q ≤ 2 * twoTo 52) :
    unitsOfRank (s * twoTo 52 + q + 1) = (q + if q = 2 * twoTo 52 then 2 else 1) * twoTo s := by
  split
  · next hend =>
    have hpos := twoTo_pos 52
    have hnext : s * twoTo 52 + q + 1 = (s + 1) * twoTo 52 + (twoTo 52 + 1) := by
      rw [Nat.add_mul, hend]
      omega
    rw [hnext, unitsOfRank_binade (Or.inr (Nat.le_add_right _ 1)) (by omega), twoTo_succ s, hend]
    ring
  · next hinside =>
    rw [Nat.add_assoc, unitsOfRank_binade (by omega) (by omega)]

/-- The previous double. -/
theorem unitsOfRank_previous (hlow : s = 0 ∧ 0 < q ∨ twoTo 52 < q) (hhigh : q ≤ 2 * twoTo 52) :
    unitsOfRank (s * twoTo 52 + q - 1) = (q - 1) * twoTo s := by
  rw [Nat.add_sub_assoc (by omega), unitsOfRank_binade (by omega) (by omega)]

/-- The double before the start of a range is half as far. -/
theorem unitsOfRank_before (s : Nat) :
    unitsOfRank ((s + 1) * twoTo 52 + twoTo 52 - 1) = (2 * twoTo 52 - 1) * twoTo s := by
  have hpos := twoTo_pos 52
  have hrank : (s + 1) * twoTo 52 + twoTo 52 - 1 = s * twoTo 52 + (2 * twoTo 52 - 1) := by
    rw [Nat.add_mul]
    omega
  rw [hrank, unitsOfRank_binade (by omega) (by omega)]

/-- The midpoint above a double is half a step away or more. -/
theorem sum_above (hlow : s = 0 ∨ twoTo 52 ≤ q) (hhigh : q ≤ 2 * twoTo 52) :
    (2 * q + 1) * twoTo s ≤
      unitsOfRank (s * twoTo 52 + q) + unitsOfRank (s * twoTo 52 + q + 1) := by
  rw [unitsOfRank_binade hlow hhigh, unitsOfRank_next hlow hhigh, ← Nat.add_mul]
  refine Nat.mul_le_mul_right _ ?_
  split <;> omega

/-- The midpoint below a double is half a step away, but less than that at the start of a range. -/
theorem sum_below (hlow : s = 0 ∨ twoTo 52 ≤ q) (hhigh : q ≤ 2 * twoTo 52) :
    unitsOfRank (s * twoTo 52 + q - 1) + unitsOfRank (s * twoTo 52 + q) + twoTo s = 2 * q * twoTo s ∨
      s ≠ 0 ∧ q = twoTo 52 ∧
        unitsOfRank (s * twoTo 52 + q - 1) + unitsOfRank (s * twoTo 52 + q) < 2 * q * twoTo s ∨
      q = 0 ∧ unitsOfRank (s * twoTo 52 + q - 1) + unitsOfRank (s * twoTo 52 + q) = 0 := by
  rw [unitsOfRank_binade hlow hhigh]
  by_cases hinside : s = 0 ∧ 0 < q ∨ twoTo 52 < q
  · left
    rw [unitsOfRank_previous hinside hhigh]
    obtain ⟨p, rfl⟩ : ∃ p, q = p + 1 := ⟨q - 1, by omega⟩
    rw [Nat.add_sub_cancel]
    ring
  · right
    cases s with
    | zero =>
      obtain rfl : q = 0 := by omega
      refine Or.inr ⟨rfl, ?_⟩
      rw [Nat.zero_mul, Nat.zero_mul]
      rfl
    | succ s =>
      obtain rfl : q = twoTo 52 := by omega
      have hpos := twoTo_pos 52
      refine Or.inl ⟨Nat.succ_ne_zero s, rfl, ?_⟩
      rw [unitsOfRank_before]
      calc (2 * twoTo 52 - 1) * twoTo s + twoTo 52 * twoTo (s + 1)
        _ < 2 * twoTo 52 * twoTo s + twoTo 52 * twoTo (s + 1) :=
          Nat.add_lt_add_right (Nat.mul_lt_mul_of_pos_right (by omega) (twoTo_pos s)) _
        _ = 2 * twoTo 52 * twoTo (s + 1) := by
          rw [twoTo_succ s]
          ring

/-! ## The nearest natural number -/

/-- **The nearest natural number** to a ratio is at most half of one away from it, and if it is just that
far, it is even. -/
theorem roundEven_spec {u d : Nat} (hd : 0 < d) :
    2 * u ≤ (2 * roundEven u d + 1) * d ∧ 2 * roundEven u d * d ≤ 2 * u + d ∧
      (roundEven u d % 2 = 1 →
        2 * u < (2 * roundEven u d + 1) * d ∧ 2 * roundEven u d * d < 2 * u + d) := by
  have hsplit := Nat.div_add_mod' u d
  have hrest := Nat.mod_lt u hd
  unfold roundEven
  simp only
  generalize u / d = a at hsplit ⊢
  generalize u % d = b at hsplit hrest ⊢
  have hodd : (2 * a + 1) * d = 2 * (a * d) + d := by ring
  have hnext : 2 * (a + 1) * d = 2 * (a * d) + 2 * d := by ring
  have hnextOdd : (2 * (a + 1) + 1) * d = 2 * (a * d) + 3 * d := by ring
  have heven : 2 * a * d = 2 * (a * d) := by ring
  split
  · rw [hodd, heven]
    omega
  · split
    · rw [hnext, hnextOdd]
      omega
    · -- A tie: the parity decides.
      rcases Nat.mod_two_eq_zero_or_one a with ha | ha
      · simp only [ha, Nat.add_zero, hodd, heven]
        omega
      · simp only [ha, hnext, hnextOdd]
        omega

theorem div_le_roundEven (u d : Nat) : u / d ≤ roundEven u d := by
  unfold roundEven
  simp only
  split
  · exact le_rfl
  · split <;> omega

/-! ## What is rounded to a double -/

/-- A ratio is near the double at a rank: between the midpoints to the neighbours of the double, or on one of
them if the rank is even. -/
def Near (r num den : Nat) : Prop :=
  let below := (unitsOfRank (r - 1) + unitsOfRank r) * den
  let above := (unitsOfRank r + unitsOfRank (r + 1)) * den
  let twice := 2 * (num * twoTo 1074)
  below ≤ twice ∧ twice ≤ above ∧ (r % 2 = 1 → below < twice ∧ twice < above)

/-- A ratio is near one double only. -/
theorem Near.unique {r r' num den : Nat} (hden : 0 < den) (h : Near r num den) (h' : Near r' num den) :
    r = r' := by
  wlog hlt : r < r' generalizing r r'
  · rcases Nat.lt_or_eq_of_le (Nat.not_lt.mp hlt) with hgt | heq
    · exact (this h' h hgt).symm
    · exact heq.symm
  exfalso
  obtain ⟨-, habove, hodd⟩ := h
  obtain ⟨hbelow, -, hodd'⟩ := h'
  have hmono := strictMono_unitsOfRank.monotone
  have hfirst : unitsOfRank r ≤ unitsOfRank (r' - 1) := hmono (by omega)
  have hsecond : unitsOfRank (r + 1) ≤ unitsOfRank r' := hmono (by omega)
  have hsums : (unitsOfRank r + unitsOfRank (r + 1)) * den ≤
      (unitsOfRank (r' - 1) + unitsOfRank r') * den := Nat.mul_le_mul_right den (by omega)
  -- Both midpoints are the ratio itself, so the doubles are neighbours with ranks that are both even.
  have heq : (unitsOfRank r + unitsOfRank (r + 1)) * den =
      (unitsOfRank (r' - 1) + unitsOfRank r') * den := by omega
  have hneighbour : r' = r + 1 :=
    (strictMono_unitsOfRank.injective (by have := Nat.eq_of_mul_eq_mul_right hden heq; omega)).symm
  subst hneighbour
  rcases Nat.mod_two_eq_zero_or_one r with hr | hr
  · have := (hodd' (by omega)).1
    omega
  · have := (hodd hr).2
    omega

/-- Within a range every other rank is even. -/
theorem rank_mod_two (s q : Nat) : (s * twoTo 52 + q) % 2 = q % 2 := by
  have hfactor : s * twoTo 52 = 2 * (s * twoTo 51) := by
    rw [twoTo_succ 51]
    ring
  omega

/-- **Rounding within a range** gives a double that the ratio is near. -/
theorem near_of_binade {num den : Nat} (hden : 0 < den)
    (hlow : s = 0 ∨ twoTo 52 * (den * twoTo s) ≤ num * twoTo 1074)
    (hhigh : num * twoTo 1074 < 2 * twoTo 52 * (den * twoTo s)) :
    Near (s * twoTo 52 + roundEven (num * twoTo 1074) (den * twoTo s)) num den := by
  have hd : 0 < den * twoTo s := Nat.mul_pos hden (twoTo_pos s)
  have hqlow : s = 0 ∨ twoTo 52 ≤ roundEven (num * twoTo 1074) (den * twoTo s) :=
    hlow.imp_right fun h => ((Nat.le_div_iff_mul_le hd).mpr h).trans (div_le_roundEven _ _)
  have hqhigh : roundEven (num * twoTo 1074) (den * twoTo s) ≤ 2 * twoTo 52 :=
    (roundEven_le _ _).trans ((Nat.div_lt_iff_lt_mul hd).mpr hhigh)
  obtain ⟨habove, hbelow, hodd⟩ := roundEven_spec (u := num * twoTo 1074) hd
  unfold Near
  simp only
  generalize roundEven (num * twoTo 1074) (den * twoTo s) = q at hqlow hqhigh habove hbelow hodd ⊢
  generalize num * twoTo 1074 = u at hlow habove hbelow hodd ⊢
  rw [rank_mod_two]
  have hupper := Nat.mul_le_mul_right den (sum_above hqlow hqhigh)
  have hlower := sum_below hqlow hqhigh
  generalize unitsOfRank (s * twoTo 52 + q - 1) + unitsOfRank (s * twoTo 52 + q) = below at hlower ⊢
  rw [show (2 * q + 1) * twoTo s * den = (2 * q + 1) * (den * twoTo s) by ring] at hupper
  have hstrict : below * den < 2 * u ∨ below * den + den * twoTo s = 2 * q * (den * twoTo s) ∨
      q = 0 ∧ below * den = 0 := by
    rcases hlower with h | ⟨hs, hq, h⟩ | ⟨hq, h⟩
    · right
      left
      rw [show below * den + den * twoTo s = (below + twoTo s) * den by ring, h]
      ring
    · left
      calc below * den
        _ < 2 * q * twoTo s * den := Nat.mul_lt_mul_of_pos_right h hden
        _ = 2 * (twoTo 52 * (den * twoTo s)) := by
          rw [hq]
          ring
        _ ≤ 2 * u := Nat.mul_le_mul_left 2 (hlow.resolve_left hs)
    · exact Or.inr (Or.inr ⟨hq, by rw [h, Nat.zero_mul]⟩)
  refine ⟨by omega, habove.trans hupper, fun hq => ⟨?_, (hodd hq).1.trans_le hupper⟩⟩
  have := (hodd hq).2
  omega

/-- The nearest rank is one that the ratio is near. -/
theorem near_rankOfRatio {num den : Nat} (hden : 0 < den) : Near (rankOfRatio num den) num den := by
  unfold rankOfRatio
  simp only
  have hquotient := Nat.div_add_mod' (num * twoTo 1074) den
  have hrest := Nat.mod_lt (num * twoTo 1074) hden
  generalize hk : num * twoTo 1074 / den = k at hquotient ⊢
  have hlimit : num * twoTo 1074 < (k + 1) * den := by
    rw [Nat.add_mul]
    omega
  refine near_of_binade hden ?_ ?_
  · split
    · exact Or.inl rfl
    · next hlarge =>
      right
      have hpos : 0 < k := Nat.lt_of_lt_of_le (twoTo_pos 53) (Nat.le_of_not_lt hlarge)
      have hlog : 53 ≤ k.log2 := (Nat.le_log2 hpos.ne').mpr (Nat.le_of_not_lt hlarge)
      have hpower : twoTo 52 * twoTo (k.log2 - 52) ≤ k := by
        rw [← twoTo_add, show 52 + (k.log2 - 52) = k.log2 by omega]
        exact Nat.log2_self_le hpos.ne'
      calc twoTo 52 * (den * twoTo (k.log2 - 52))
        _ = twoTo 52 * twoTo (k.log2 - 52) * den := by ring
        _ ≤ k * den := Nat.mul_le_mul_right den hpower
        _ ≤ num * twoTo 1074 := by omega
  · refine hlimit.trans_le ?_
    split
    · next hsmall =>
      rw [twoTo_zero, Nat.mul_one]
      refine Nat.mul_le_mul_right den ?_
      rw [twoTo_succ] at hsmall
      omega
    · next hlarge =>
      have hlog : 52 ≤ k.log2 := by
        have hpos : 0 < k := Nat.lt_of_lt_of_le (twoTo_pos 53) (Nat.le_of_not_lt hlarge)
        exact ((Nat.le_log2 hpos.ne').mpr (Nat.le_of_not_lt hlarge)).trans' (by decide)
      have hpower : k < twoTo 53 * twoTo (k.log2 - 52) := by
        rw [← twoTo_add, show 53 + (k.log2 - 52) = k.log2 + 1 by omega]
        exact Nat.lt_log2_self
      calc (k + 1) * den
        _ ≤ twoTo 53 * twoTo (k.log2 - 52) * den := Nat.mul_le_mul_right den hpower
        _ = 2 * twoTo 52 * (den * twoTo (k.log2 - 52)) := by
          rw [twoTo_succ 52]
          ring

/-- **What is rounded to a double** are the ratios near it. -/
theorem rankOfRatio_eq_iff {num den r : Nat} (hden : 0 < den) : rankOfRatio num den = r ↔ Near r num den := by
  constructor
  · rintro rfl
    exact near_rankOfRatio hden
  · exact fun h => (near_rankOfRatio hden).unique hden h

end Targeting.Binary64
