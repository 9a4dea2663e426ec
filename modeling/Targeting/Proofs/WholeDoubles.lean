import Mathlib.Data.List.TakeWhile
import Targeting.Decimal.Style
import Targeting.Proofs.Rounding

/-!
# How whole doubles are written

A double is written with the fewest digits that read back as it. For a whole double with many digits the grids
on which these are sought are the multiples of the powers of ten, and what reads back are the whole numbers that
are rounded to the double. So what is written is a whole number, too, but not always the double itself.

* `Near.between`, `near_self`, **`readsBack_iff`**: the whole numbers that read back;
* `gridBelow_of_whole`: the grids of a whole double; `not_near_of_candidate`, **`nearest_of_candidate`**: what
  is found on them;
* `trimZeros_append`, **`layOut_ofGrid`**: what is written of it.
-/

namespace Targeting

open Binary64

theorem tenTo_add (m n : Nat) : tenTo (m + n) = tenTo m * tenTo n := Nat.pow_add 10 m n

/-! ## Whole numbers near a double -/

namespace Binary64

/-- Between two whole numbers near a double all are. -/
theorem Near.between {r a b c : Nat} (ha : Near r a 1) (hc : Near r c 1) (hab : a ≤ b) (hbc : b ≤ c) :
    Near r b 1 := by
  obtain ⟨hbelow, -, hodd⟩ := ha
  obtain ⟨-, habove, hodd'⟩ := hc
  have hab := Nat.mul_le_mul_left 2 (Nat.mul_le_mul_right (twoTo 1074) hab)
  have hbc := Nat.mul_le_mul_left 2 (Nat.mul_le_mul_right (twoTo 1074) hbc)
  exact ⟨hbelow.trans hab, hbc.trans habove, fun hr => ⟨(hodd hr).1.trans_le hab, hbc.trans_lt (hodd' hr).2⟩⟩

/-- A whole double is near itself. -/
theorem near_self {r d : Nat} (h : unitsOfRank r = d * twoTo 1074) : Near r d 1 := by
  have hprevious := strictMono_unitsOfRank.monotone (Nat.sub_le r 1)
  have hnext := strictMono_unitsOfRank (Nat.lt_add_one r)
  unfold Near
  simp only [Nat.mul_one, ← h]
  refine ⟨by omega, by omega, fun hr => ?_⟩
  have hlt := strictMono_unitsOfRank (show r - 1 < r by omega)
  omega

end Binary64

namespace Scientific

/-- One in the units in which doubles are compared with decimals. -/
def unit : Nat := tenTo scale * twoTo 1075

theorem unit_pos : 0 < unit := Nat.mul_pos (tenTo_pos _) (twoTo_pos _)

/-- **A whole number reads back as a double** exactly if it is near it. -/
theorem readsBack_iff {r m : Nat} : readsBack r (m * unit) = true ↔ Near r m 1 := by
  have hpoint : m * unit = 2 * (m * twoTo 1074) * tenTo scale := by
    rw [unit, twoTo_succ 1074]
    ring
  have hpos := tenTo_pos scale
  unfold readsBack scaledLow scaledHigh Near
  rw [hpoint]
  simp only [Nat.mul_one]
  rcases Nat.mod_two_eq_zero_or_one r with hr | hr
  · rw [if_pos hr]
    simp [hr, Nat.mul_le_mul_right_iff hpos]
  · rw [if_neg (by omega)]
    simp only [hr, Bool.and_eq_true, decide_eq_true_eq, Nat.mul_lt_mul_right hpos, forall_const]
    exact ⟨fun h => ⟨h.1.le, h.2.le, h⟩, fun h => h.2.2⟩

/-! ## Decimal grids -/

theorem toDigits_mul_tenTo {n : Nat} (hn : 0 < n) (j : Nat) :
    Nat.toDigits 10 (n * tenTo j) = Nat.toDigits 10 n ++ Style.zeros j := by
  induction j with
  | zero => rw [tenTo_zero, Nat.mul_one, Style.zeros, List.replicate_zero, List.append_nil]
  | succ j ih =>
    have hpos : 0 < n * tenTo j := Nat.mul_pos hn (tenTo_pos j)
    have hsplit : n * tenTo (j + 1) = 10 * (n * tenTo j) + 0 := by
      rw [tenTo_succ]
      ring
    rw [hsplit, ← Nat.toDigits_append_toDigits (by decide) hpos (by decide), ih, List.append_assoc,
      Style.zeros, Style.zeros, List.replicate_succ']
    rfl

theorem digitCount_mul_tenTo {n : Nat} (hn : 0 < n) (j : Nat) :
    digitCount (n * tenTo j) = digitCount n + j := by
  rw [digitCount, toDigits_mul_tenTo hn, List.length_append, Style.zeros, List.length_replicate, digitCount]

variable {r d n : Nat} (hd : unitsOfRank r = d * twoTo 1074)

include hd in
theorem scaledValue_of_whole : scaledValue r = d * unit := by
  rw [scaledValue, hd, unit, twoTo_succ 1074]
  ring

include hd in
/-- The place of the leading digit of a whole double. -/
theorem leading_of_whole (hpos : 0 < d) : leading r = digitCount d + scale - 1 := by
  have hquotient : scaledValue r / twoTo 1075 = d * tenTo scale := by
    rw [scaledValue_of_whole hd, unit, ← Nat.mul_assoc, Nat.mul_div_cancel _ (twoTo_pos 1075)]
  rw [leading, hquotient, digitCount_mul_tenTo hpos]

include hd in
/-- The grid of a whole double for no more digits than it has. -/
theorem gridBelow_of_whole (hpos : 0 < d) (hfirst : 1 ≤ n) (hlast : n ≤ digitCount d) :
    gridBelow r n = (d / tenTo (digitCount d - n), tenTo (digitCount d - n) * unit) := by
  have hplace : leading r - (n - 1) = digitCount d - n + scale := by
    rw [leading_of_whole hd hpos]
    omega
  have hstep : tenTo (leading r - (n - 1)) * twoTo 1075 = tenTo (digitCount d - n) * unit := by
    rw [hplace, unit, tenTo_add, Nat.mul_assoc]
  unfold gridBelow
  simp only [hstep, scaledValue_of_whole hd, Nat.mul_div_mul_right _ _ unit_pos]

/-- The multiples of a step on both sides of a number, and how far others are away. -/
theorem multiple_below_or_above {d t l : Nat} (ht : 0 < t) :
    d / t * t ≤ d ∧ d < (d / t + 1) * t ∧ (l * t ≤ d / t * t ∨ (d / t + 1) * t ≤ l * t) := by
  refine ⟨Nat.div_mul_le_self d t, Nat.lt_mul_of_div_lt (Nat.lt_succ_self _) ht, ?_⟩
  rcases Nat.lt_or_ge (d / t) l with h | h
  · exact Or.inr (Nat.mul_le_mul_right t h)
  · exact Or.inl (Nat.mul_le_mul_right t h)

/-- A point of the grid reads back exactly if it is near the double. -/
theorem readsBack_point {r : Nat} (k t : Nat) : readsBack r (k * (t * unit)) = true ↔ Near r (k * t) 1 := by
  rw [← Nat.mul_assoc, readsBack_iff]

include hd in
/-- Without a candidate no point of the grid reads back. -/
theorem not_near_of_candidate {tie : TieRule} (hpos : 0 < d) (hfirst : 1 ≤ n) (hlast : n ≤ digitCount d)
    (h : candidate tie r n = none) (l : Nat) : ¬ Near r (l * tenTo (digitCount d - n)) 1 := by
  unfold candidate at h
  rw [gridBelow_of_whole hd hpos hfirst hlast] at h
  simp only at h
  split at h
  case h_4 hbelow habove =>
    intro hl
    obtain ⟨hle, hlt, hside⟩ := multiple_below_or_above (d := d) (l := l) (tenTo_pos (digitCount d - n))
    rcases hside with hside | hside
    · exact absurd ((readsBack_point _ _).mpr (hl.between (near_self hd) hside hle))
        (by rw [hbelow]; exact Bool.false_ne_true)
    · exact absurd ((readsBack_point _ _).mpr ((near_self hd).between hl hlt.le hside))
        (by rw [habove]; exact Bool.false_ne_true)
  all_goals cases h

/-- Of two neighbours the nearer one is taken, or one of them if both are equally near. -/
theorem nearer_cases (tie : TieRule) (d t k : Nat) :
    nearer tie (d * unit) (t * unit) k = k ∧ 2 * (d - k * t) ≤ t ∨
      nearer tie (d * unit) (t * unit) k = k + 1 ∧ t ≤ 2 * (d - k * t) := by
  have htwice : 2 * (d * unit - k * (t * unit)) = 2 * (d - k * t) * unit := by
    rw [← Nat.mul_assoc k, ← Nat.sub_mul, Nat.mul_assoc]
  unfold nearer
  simp only [htwice, Nat.mul_lt_mul_right unit_pos]
  split
  · next h => exact Or.inl ⟨rfl, h.le⟩
  · split
    · next h => exact Or.inr ⟨rfl, h.le⟩
    · cases tie with
      | up => exact Or.inr ⟨rfl, by omega⟩
      | even =>
        rcases Nat.mod_two_eq_zero_or_one k with hk | hk
        · exact Or.inl ⟨by simp only [hk, Nat.add_zero], by omega⟩
        · exact Or.inr ⟨by simp only [hk], by omega⟩

/-- The distance of a whole number from another one. -/
def away (d m : Nat) : Nat := ((m : Int) - d).natAbs

include hd in
/-- **A candidate is the nearest point of the grid** that reads back. -/
theorem nearest_of_candidate {tie : TieRule} (hpos : 0 < d) (hfirst : 1 ≤ n) (hlast : n ≤ digitCount d)
    {k : Nat} (h : candidate tie r n = some k) :
    Near r (k * tenTo (digitCount d - n)) 1 ∧ ∀ l, Near r (l * tenTo (digitCount d - n)) 1 →
      away d (k * tenTo (digitCount d - n)) ≤ away d (l * tenTo (digitCount d - n)) := by
  unfold candidate at h
  rw [gridBelow_of_whole hd hpos hfirst hlast, scaledValue_of_whole hd] at h
  simp only at h
  generalize ht : tenTo (digitCount d - n) = t at h ⊢
  have htpos : 0 < t := ht ▸ tenTo_pos _
  have hself := near_self hd
  have hnot : ∀ {m}, readsBack r (m * (t * unit)) = false → ¬ Near r (m * t) 1 := fun hm hnear => by
    rw [(readsBack_point _ t).mpr hnear] at hm
    cases hm
  have hside := fun l => multiple_below_or_above (d := d) (l := l) htpos
  have hstep : (d / t + 1) * t = d / t * t + t := Nat.succ_mul _ _
  unfold away
  split at h
  case h_1 hbelow habove =>
    have hbelow := (readsBack_point _ t).mp hbelow
    have habove := (readsBack_point _ t).mp habove
    rcases nearer_cases tie d t (d / t) with ⟨hk, hhalf⟩ | ⟨hk, hhalf⟩
    · obtain rfl : d / t = k := hk.symm.trans (Option.some.inj h)
      refine ⟨hbelow, fun l _ => ?_⟩
      obtain ⟨hle, hlt, hl⟩ := hside l
      omega
    · obtain rfl : d / t + 1 = k := hk.symm.trans (Option.some.inj h)
      refine ⟨habove, fun l _ => ?_⟩
      obtain ⟨hle, hlt, hl⟩ := hside l
      omega
  case h_2 hbelow habove =>
    obtain rfl := Option.some.inj h
    refine ⟨(readsBack_point _ t).mp hbelow, fun l hnear => ?_⟩
    obtain ⟨hle, hlt, hl | hl⟩ := hside l
    · omega
    · exact absurd (hself.between hnear hlt.le hl) (hnot habove)
  case h_3 hbelow habove =>
    obtain rfl := Option.some.inj h
    refine ⟨(readsBack_point _ t).mp habove, fun l hnear => ?_⟩
    obtain ⟨hle, hlt, hl | hl⟩ := hside l
    · exact absurd (hnear.between hself hl hle) (hnot hbelow)
    · omega
  case h_4 => cases h

/-! ## Digits written out -/

/-- What is cut off at the end are zeros. -/
theorem trimZeros_append (ds : List Char) :
    trimZeros ds ++ Style.zeros (ds.length - (trimZeros ds).length) = ds := by
  have hcut : ds.reverse.takeWhile (· = '0') = Style.zeros (ds.reverse.takeWhile (· = '0')).length :=
    List.eq_replicate_of_mem fun c hc => by simpa using List.mem_takeWhile_imp hc
  have hsplit : trimZeros ds ++ (ds.reverse.takeWhile (· = '0')).reverse = ds := by
    rw [trimZeros, ← List.reverse_append, List.takeWhile_append_dropWhile, List.reverse_reverse]
  have hlength := congrArg List.length hsplit
  rw [List.length_append, List.length_reverse] at hlength
  rw [show ds.length - (trimZeros ds).length = (ds.reverse.takeWhile (· = '0')).length by omega, ← hcut]
  nth_rewrite 3 [← hsplit]
  rw [hcut, Style.zeros, List.reverse_replicate]

include hd in
/-- **A point of the grid is written** as the whole number that it is. -/
theorem layOut_ofGrid (hpos : 0 < d) (hfirst : 1 ≤ n) (hlast : n ≤ digitCount d) {k : Nat} (hk : 0 < k) :
    Style.plain.layOut (ofGrid r n k) = Nat.toDigits 10 (k * tenTo (digitCount d - n)) := by
  have hlength : 0 < (Nat.toDigits 10 k).length := Nat.length_toDigits_pos
  have hexponent : (ofGrid r n k).exponent =
      ((digitCount d - n + (Nat.toDigits 10 k).length - 1 : Nat) : Int) := by
    rw [ofGrid, leading_of_whole hd hpos]
    simp only
    omega
  have htrim := congrArg List.length (trimZeros_append (Nat.toDigits 10 k))
  rw [List.length_append, Style.zeros, List.length_replicate] at htrim
  have hdigits : (ofGrid r n k).digits = trimZeros (Nat.toDigits 10 k) := rfl
  have hplain : Style.plain.keepsFraction = false := rfl
  rw [Style.layOut, hexponent, hdigits, if_neg (by omega), toDigits_mul_tenTo hk]
  simp only [Int.toNat_natCast, hplain, Bool.false_eq_true, if_false, List.append_nil]
  have hzeros : digitCount d - n + (Nat.toDigits 10 k).length - 1 + 1 - (trimZeros (Nat.toDigits 10 k)).length =
      ((Nat.toDigits 10 k).length - (trimZeros (Nat.toDigits 10 k)).length) + (digitCount d - n) := by
    omega
  rw [if_pos (by omega), hzeros, Style.zeros, List.replicate_add, ← List.append_assoc]
  exact congrArg (· ++ _) (trimZeros_append _)

end Scientific

end Targeting
