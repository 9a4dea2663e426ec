import Targeting.Proofs.Front
import Targeting.Proofs.Rounding
import Targeting.Proofs.Spelling

/-!
# Numbers in JSON texts

Every number is written as a numeral: digits without a zero in front, digits after a point, and an exponent
with a sign. So it is taken as a whole off the front of a text that does not go on with it, and the reader
makes the same of it wherever it stands.

* `Scientific.IsProper`, `Scientific.isProper_ofRank`: the digits of a double start with a zero only if it is
  zero;
* `Style.exists_parts`: the parts of the text of a double;
* **`Json.Number.exists_take`**: the text of a number is one numeral;
* `Json.Number.reread`, **`Document.takeLeaf_chars`**: what the reader makes of it;
  `Json.Number.reread_eq_iff`: when this is the number itself.
-/

namespace Targeting

/-! ## Digits of doubles -/

namespace Scientific

/-- The digits of a decimal do not start with a zero, unless this is all there is. -/
structure IsProper (x : Scientific) : Prop where
  digits : ∀ c ∈ x.digits, c.isDigit = true
  first : x = { digits := ['0'], exponent := 0 } ∨ ∃ c ds, x.digits = c :: ds ∧ c ≠ '0'

theorem tenTo_digitCount_le {n : Nat} (h : 0 < n) : tenTo (digitCount n - 1) ≤ n := by
  induction n using Nat.strongRecOn with
  | ind n ih =>
    by_cases hsmall : n < 10
    · rw [digitCount, Nat.toDigits_of_lt_base hsmall]
      exact h
    · have hpos : 0 < n / 10 := by omega
      have hcount : digitCount n = digitCount (n / 10) + 1 := by
        rw [digitCount, Nat.toDigits_of_base_le (by decide) (by omega), List.length_append, digitCount]
        rfl
      have hfirst : 0 < digitCount (n / 10) := List.length_pos_of_ne_nil Nat.toDigits_ne_nil
      have hle := ih (n / 10) (by omega) hpos
      rw [hcount, Nat.add_sub_cancel, show digitCount (n / 10) = digitCount (n / 10) - 1 + 1 by omega,
        tenTo_succ]
      omega

/-- The step of every grid is no more than the double itself. -/
theorem step_le {r : Nat} (h : 0 < r) (n : Nat) : (gridBelow r n).2 ≤ scaledValue r := by
  have hunits : 0 < Binary64.unitsOfRank r :=
    Nat.lt_of_le_of_lt (Nat.zero_le _) (Binary64.strictMono_unitsOfRank h)
  have hroom : twoTo 1075 ≤ 2 * tenTo scale := by decide +kernel
  have hvalue : twoTo 1075 ≤ scaledValue r := by
    rw [scaledValue]
    exact hroom.trans (Nat.mul_le_mul_right _ (by omega))
  have hquotient : 0 < scaledValue r / twoTo 1075 := Nat.div_pos hvalue (twoTo_pos 1075)
  have hleading : tenTo (leading r) ≤ scaledValue r / twoTo 1075 := tenTo_digitCount_le hquotient
  have hstep : tenTo (leading r - (n - 1)) ≤ tenTo (leading r) :=
    Nat.pow_le_pow_right (by decide) (Nat.sub_le _ _)
  calc (gridBelow r n).2 = tenTo (leading r - (n - 1)) * twoTo 1075 := rfl
    _ ≤ scaledValue r / twoTo 1075 * twoTo 1075 := Nat.mul_le_mul_right _ (hstep.trans hleading)
    _ ≤ scaledValue r := Nat.div_mul_le_self _ _

theorem le_nearer (tie : TieRule) (value step k : Nat) : k ≤ nearer tie value step k := by
  unfold nearer
  simp only
  split
  · exact Nat.le_refl _
  split
  · exact Nat.le_succ _
  · cases tie
    · exact Nat.le_succ _
    · exact Nat.le_add_right _ _

theorem candidate_pos {tie : TieRule} {r n k : Nat} (hr : 0 < r) (h : candidate tie r n = some k) :
    0 < k := by
  have hpos : 0 < (gridBelow r n).1 :=
    Nat.div_pos (step_le hr n) (Nat.mul_pos (tenTo_pos _) (twoTo_pos _))
  rw [candidate] at h
  generalize gridBelow r n = grid at h hpos
  obtain ⟨below, step⟩ := grid
  simp only at h hpos
  split at h
  · exact hpos.trans_le (Option.some.inj h ▸ le_nearer _ _ _ _)
  · exact Option.some.inj h ▸ hpos
  · exact Option.some.inj h ▸ Nat.succ_pos _
  · cases h

theorem exists_trimZeros_eq_cons {c : Char} (hc : c ≠ '0') (ds : List Char) :
    ∃ rest, trimZeros (c :: ds) = c :: rest := by
  rw [trimZeros, List.reverse_cons, List.dropWhile_append]
  split
  · exact ⟨[], by simp [hc]⟩
  · exact ⟨(ds.reverse.dropWhile fun d => d = '0').reverse, by simp⟩

theorem isProper_ofRank (tie : TieRule) {r : Nat} (hr : 0 < r) : (ofRank tie r).IsProper := by
  refine ⟨isDigit_ofRank tie r, ?_⟩
  rw [ofRank]
  cases h : (List.range 17).findSome? fun i => (candidate tie r (i + 1)).map (ofGrid r (i + 1)) with
  | none => exact Or.inl rfl
  | some x =>
    obtain ⟨i, _, hi⟩ := List.exists_of_findSome?_eq_some h
    obtain ⟨k, hk, rfl⟩ := Option.map_eq_some_iff.mp hi
    obtain ⟨c, ds, hds, hc⟩ := exists_toDigits_eq_cons (candidate_pos hr hk)
    obtain ⟨rest, hrest⟩ := exists_trimZeros_eq_cons hc ds
    refine Or.inr ⟨c, rest, ?_, hc⟩
    rw [← hrest, ← hds]
    rfl

end Scientific

theorem Style.isProper_digitsOf (style : Style) (x : Binary64.Finite) : (style.digitsOf x).IsProper := by
  rw [digitsOf]
  split
  · exact ⟨List.forall_mem_singleton.mpr (by decide), Or.inl rfl⟩
  · next hzero =>
    refine Scientific.isProper_ofRank style.tie (Nat.pos_of_ne_zero fun h => hzero ?_)
    simp [Binary64.Finite.isZero, h]

/-! ## Parts of texts -/

open Json.Numeral

/-- Digits that are no zero in front may be followed by more. -/
theorem Scientific.IsProper.isWhole {x : Scientific} (h : x.IsProper) {n : Nat} (hn : 0 < n) {ds : List Char}
    (hds : ∀ c ∈ ds, c.isDigit = true) (hzero : x = { digits := ['0'], exponent := 0 } → ds = []) :
    IsWhole (x.digits.take n ++ ds) := by
  refine ⟨fun c hc => ?_, ?_⟩
  · rcases List.mem_append.mp hc with hc | hc
    · exact h.digits c (List.mem_of_mem_take hc)
    · exact hds c hc
  · obtain ⟨m, rfl⟩ := Nat.exists_eq_succ_of_ne_zero hn.ne'
    rcases h.first with rfl | ⟨c, cs, hcs, hc⟩
    · exact Or.inl (by simp [hzero rfl])
    · exact Or.inr ⟨c, cs.take m ++ ds, by simp [hcs], hc⟩

theorem Scientific.IsProper.ne_nil {x : Scientific} (h : x.IsProper) : x.digits ≠ [] := by
  rcases h.first with rfl | ⟨c, cs, hcs, _⟩
  · exact List.cons_ne_nil _ _
  · exact hcs ▸ List.cons_ne_nil _ _

/-- A text without sign has the parts of a numeral. -/
def HasParts (cs : List Char) : Prop := ∃ whole fraction tail exponent, IsWhole whole ∧
  (∀ c ∈ fraction, c.isDigit = true) ∧ IsExponent tail exponent ∧ cs = whole ++ point fraction ++ tail

namespace Style

theorem hasParts_layOut {x : Scientific} (h : x.IsProper) : HasParts (json.layOut x) := by
  have hkeeps : json.keepsFraction = true := rfl
  rw [layOut, hkeeps]
  simp only [if_true]
  split
  · -- A zero stands before the point, and zeros and the digits after it.
    refine ⟨['0'], zeros (-x.exponent - 1).toNat ++ x.digits, [], none, ?_, ?_, .none, ?_⟩
    · exact ⟨List.forall_mem_singleton.mpr (by decide), Or.inl rfl⟩
    · exact List.forall_mem_append.mpr ⟨isDigit_zeros _, h.digits⟩
    · obtain ⟨c, cs, hcs⟩ := List.exists_cons_of_ne_nil
        (List.append_ne_nil_of_right_ne_nil (zeros (-x.exponent - 1).toNat) h.ne_nil)
      rw [hcs, List.append_nil]
      rfl
  split
  · next hlength =>
    refine ⟨x.digits ++ zeros (x.exponent.toNat + 1 - x.digits.length), ['0'], [], none, ?_, ?_, .none, ?_⟩
    · have hwhole := h.isWhole (Nat.succ_pos x.exponent.toNat)
        (isDigit_zeros (x.exponent.toNat + 1 - x.digits.length)) (by rintro rfl; rfl)
      rwa [List.take_of_length_le hlength] at hwhole
    · exact List.forall_mem_singleton.mpr (by decide)
    · rw [List.append_nil]
      rfl
  · next hlength =>
    refine ⟨x.digits.take (x.exponent.toNat + 1), x.digits.drop (x.exponent.toNat + 1), [], none,
      ?_, ?_, .none, ?_⟩
    · have hwhole := h.isWhole (Nat.succ_pos x.exponent.toNat) (List.forall_mem_nil _) fun _ => rfl
      rwa [List.append_nil] at hwhole
    · exact fun c hc => h.digits c (List.mem_of_mem_drop hc)
    · obtain ⟨c, cs, hcs⟩ := List.exists_cons_of_ne_nil
        (mt List.drop_eq_nil_iff.mp hlength)
      rw [hcs, List.append_nil]
      rfl

theorem hasParts_withExponent {x : Scientific} (h : x.IsProper) : HasParts (json.withExponent x) := by
  obtain ⟨c, cs, hcs⟩ := List.exists_cons_of_ne_nil h.ne_nil
  obtain ⟨hc, hds⟩ := List.forall_mem_cons.mp (hcs ▸ h.digits)
  have hwhole : IsWhole [c] := by
    refine ⟨List.forall_mem_singleton.mpr hc, ?_⟩
    by_cases hzero : c = '0'
    · exact Or.inl (hzero ▸ rfl)
    · exact Or.inr ⟨c, [], rfl, hzero⟩
  have hmantissa : json.withExponent x = [c] ++ point cs ++
      ('e' :: (if x.exponent < 0 then ['-'] else ['+']) ++ Nat.toDigits 10 x.exponent.natAbs) := by
    have hsigns : json.signsExponent = true := rfl
    rw [withExponent, hcs, hsigns]
    simp only [if_true]
    cases cs <;> simp [point]
  rw [hmantissa]
  by_cases hnegative : x.exponent < 0
  · rw [if_pos hnegative]
    exact ⟨[c], cs, _, _, hwhole, hds, .minus _, rfl⟩
  · rw [if_neg hnegative]
    exact ⟨[c], cs, _, _, hwhole, hds, .plus _, rfl⟩

theorem hasParts_writeDigits (x : Binary64.Finite) : HasParts (json.writeDigits (json.digitsOf x)) := by
  have hpositional : json.positional = some (-5, 16) := rfl
  have h := json.isProper_digitsOf x
  rw [writeDigits, hpositional]
  simp only
  split
  · exact hasParts_layOut h
  · exact hasParts_withExponent h

end Style

/-! ## Numbers -/

namespace Json

theorem Numeral.exists_cons_of_hasParts {cs : List Char} (h : HasParts cs) :
    ∃ c cs', cs = c :: cs' ∧ c.isDigit = true := by
  obtain ⟨whole, fraction, tail, _, hwhole, _, _, rfl⟩ := h
  have hfirst : ∃ c ds, whole = c :: ds := by
    rcases hwhole.first with rfl | ⟨c, ds, rfl, _⟩
    · exact ⟨_, _, rfl⟩
    · exact ⟨_, _, rfl⟩
  obtain ⟨c, ds, rfl⟩ := hfirst
  exact ⟨c, _, rfl, hwhole.digits c List.mem_cons_self⟩

/-- A text with the parts of a numeral is taken as one numeral, perhaps with a sign in front. -/
theorem Numeral.exists_take_of_hasParts {cs : List Char} (h : HasParts cs) (negative : Bool) :
    ∃ x, ∀ rest, Stops rest →
      take ((if negative then ['-'] else []) ++ cs ++ rest) = some (x, rest) := by
  obtain ⟨c, cs', hcs, hc⟩ := exists_cons_of_hasParts h
  obtain ⟨whole, fraction, tail, exponent, hwhole, hfraction, hexponent, heq⟩ := h
  refine ⟨{ negative, whole, fraction, exponent }, fun rest hrest => ?_⟩
  have htake := takeUnsigned_append negative hwhole hfraction hexponent hrest
  rw [← heq] at htake
  cases negative with
  | true => exact htake
  | false =>
    change take (cs ++ rest) = _
    rw [take]
    · exact htake
    · intro cs'' hsign
      rw [hcs] at hsign
      obtain ⟨rfl, _⟩ := List.cons.inj hsign
      cases hc

/-- **The text of a number is one numeral**, wherever it stands in a text that does not go on with it. -/
theorem Number.exists_take (n : Number) :
    ∃ x, ∀ rest, Stops rest → Numeral.take (n.chars ++ rest) = some (x, rest) := by
  cases n with
  | integer n =>
    have h : ∀ m, HasParts (Nat.toDigits 10 m) := fun m =>
      ⟨Nat.toDigits 10 m, [], [], none, Numeral.isWhole_toDigits m, List.forall_mem_nil _, .none,
        by simp [Numeral.point]⟩
    rcases Numeral.chars_word n with ⟨m, _, hchars⟩ | ⟨m, _, hchars⟩
    · rw [hchars]
      exact Numeral.exists_take_of_hasParts (h m) false
    · rw [hchars]
      exact Numeral.exists_take_of_hasParts (h (m + 1)) true
  | float x =>
    obtain ⟨n, hn⟩ := Numeral.exists_take_of_hasParts (Style.hasParts_writeDigits x) x.negative
    refine ⟨n, fun rest hrest => ?_⟩
    rw [Number.chars, Style.writeFinite, String.toList_ofList]
    exact hn rest hrest

/-- The text of a number starts with a sign or a digit. -/
theorem Number.exists_chars (n : Number) :
    ∃ c cs, n.chars = c :: cs ∧ (c = '-' ∨ c.isDigit = true) := by
  cases n with
  | integer n => exact Numeral.exists_chars_word n
  | float x =>
    obtain ⟨c, cs, hcs, hc⟩ := Numeral.exists_cons_of_hasParts (Style.hasParts_writeDigits x)
    rw [Number.chars, Style.writeFinite, String.toList_ofList, hcs]
    cases x.negative with
    | true => exact ⟨'-', c :: cs, rfl, Or.inl rfl⟩
    | false => exact ⟨c, cs, rfl, Or.inr hc⟩

/-- What the reader makes of the text of a number. -/
def Number.reread (n : Number) : Document := (Document.takeLeaf n.chars).1

end Json

namespace Document

open Json

theorem takeLeaf_of_first {c : Char} (hc : c = '-' ∨ c.isDigit = true) (cs : List Char) :
    takeLeaf (c :: cs) = match Numeral.take (c :: cs) with
      | some (x, rest) => (match x.number? with | some n => .number n | none => .unreadable, rest)
      | none => (.broken, []) := by
  unfold takeLeaf
  split
  · next heq => exact absurd (List.cons.inj heq).1 (Numeral.ne_of_first hc (by decide))
  · next heq => exact absurd (List.cons.inj heq).1 (Numeral.ne_of_first hc (by decide))
  · next heq => exact absurd (List.cons.inj heq).1 (Numeral.ne_of_first hc (by decide))
  · rfl

/-- **The reader makes the same of a number** wherever it stands in a text that does not go on with it. -/
theorem takeLeaf_chars {rest : List Char} (h : Stops rest) (n : Number) :
    takeLeaf (n.chars ++ rest) = (n.reread, rest) := by
  obtain ⟨x, hx⟩ := n.exists_take
  obtain ⟨c, cs, hchars, hc⟩ := n.exists_chars
  have hown := hx [] nofun
  have htake := hx rest h
  rw [List.append_nil] at hown
  rw [Number.reread]
  rw [hchars] at hown htake ⊢
  rw [List.cons_append] at htake ⊢
  rw [takeLeaf_of_first hc, takeLeaf_of_first hc, htake, hown]

end Document

namespace Json.Number

theorem reread_eq_of_take {n : Number} {x : Numeral} (h : Numeral.take n.chars = some (x, [])) :
    n.reread = match x.number? with | some m => .number m | none => .unreadable := by
  obtain ⟨c, cs, hchars, hc⟩ := n.exists_chars
  rw [reread]
  rw [hchars] at h ⊢
  rw [Document.takeLeaf_of_first hc]
  cases hnumber : x.number? <;> simp [h, hnumber]

/-- **A number is read back** exactly if its numeral stands for it. -/
theorem reread_eq_iff {n : Number} : n.reread = .number n ↔
    ∃ x, Numeral.take n.chars = some (x, []) ∧ x.number? = some n := by
  obtain ⟨x, hx⟩ := n.exists_take
  have htake := hx [] nofun
  rw [List.append_nil] at htake
  rw [reread_eq_of_take htake]
  simp only [htake, Option.some.injEq, Prod.mk.injEq, and_true]
  constructor
  · intro h
    refine ⟨x, rfl, ?_⟩
    cases hnumber : x.number? with
    | none =>
      rw [hnumber] at h
      cases h
    | some m =>
      rw [hnumber] at h
      cases h
      rfl
  · rintro ⟨y, rfl, hnumber⟩
    rw [hnumber]

/-- Integers are read back. -/
theorem reread_integer (n : Word) : (integer n).reread = .number (integer n) := by
  obtain ⟨x, htake, hx⟩ := Numeral.take_word (show Stops [] from nofun) n
  rw [List.append_nil] at htake
  exact reread_eq_iff.mpr ⟨x, htake, hx⟩

end Json.Number

end Targeting
