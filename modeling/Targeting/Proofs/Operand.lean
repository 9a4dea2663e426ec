import Targeting.Proofs.Compilation

/-!
# Flat operands

Operands that are texts, numbers, or lists of these. A query is compiled with texts and finite numbers
then, each of which a literal can hold: an integer with more than 63 bits becomes a double, and no
integer of a filter is so large that the double is infinite.

* **`Binary64.finite_ofInt`**: the doubles nearest to integers of 64 bits;
* `Value.isFilling`: texts and finite numbers; `Operand.isFlat`, `FilterSet.isFlat`;
* `Filter.isFilling_operands`: what a flat filter is compiled with;
* **`Placement.AsksAll.isFilling_operands`**: and a whole list of them.
-/

namespace Targeting

/-! ## Doubles -/

namespace Binary64

theorem roundEven_le (num den : Nat) : roundEven num den ≤ num / den + 1 := by
  unfold roundEven
  simp only
  split
  · omega
  · split
    · omega
    · omega

/-- Rounding a number of `n` bits to its leading 53 leaves no more than these. -/
theorem roundEven_log2 {k : Nat} (hk : twoTo 53 ≤ k) :
    roundEven k (twoTo (k.log2 - 52)) ≤ twoTo 53 := by
  have hpos : 0 < k := Nat.lt_of_lt_of_le (twoTo_pos 53) hk
  have hlog : 53 ≤ k.log2 := (Nat.le_log2 (Nat.ne_of_gt hpos)).mpr hk
  have hlt : k < twoTo 53 * twoTo (k.log2 - 52) := by
    rw [← twoTo_add, show 53 + (k.log2 - 52) = k.log2 + 1 by omega]
    exact Nat.lt_log2_self
  have hquotient : k / twoTo (k.log2 - 52) < twoTo 53 :=
    Nat.div_lt_of_lt_mul (by rwa [Nat.mul_comm])
  exact Nat.le_trans (roundEven_le k _) hquotient

theorem log2_mul_twoTo {n : Nat} (h : n < twoTo 64) (e : Nat) : (n * twoTo e).log2 < 64 + e := by
  by_cases hzero : n * twoTo e = 0
  · rw [hzero, Nat.log2_zero]
    omega
  · refine (Nat.log2_lt hzero).mpr ?_
    show n * twoTo e < twoTo (64 + e)
    rw [twoTo_add]
    exact Nat.mul_lt_mul_of_pos_right h (twoTo_pos e)

theorem rankOfRatio_lt {n : Nat} (h : n < twoTo 64) : rankOfRatio n 1 < rankCount := by
  have hlog := log2_mul_twoTo h 1074
  have hpos : 0 < twoTo 52 := twoTo_pos 52
  have hdouble : twoTo 53 = twoTo 52 * 2 := twoTo_succ 52
  unfold rankOfRatio rankCount
  simp only [Nat.div_one, Nat.one_mul]
  generalize n * twoTo 1074 = k at hlog ⊢
  split
  · next hsmall =>
    have hround := roundEven_le k (twoTo 0)
    rw [twoTo_zero, Nat.div_one] at hround
    rw [twoTo_zero]
    omega
  · next hlarge =>
    have hround : roundEven k (twoTo (k.log2 - 52)) ≤ twoTo 53 :=
      roundEven_log2 (Nat.le_of_not_lt hlarge)
    have hshift : (k.log2 - 52) * twoTo 52 ≤ 1085 * twoTo 52 := Nat.mul_le_mul_right _ (by omega)
    omega

/-- **The double nearest to an integer of 64 bits is finite.** -/
theorem finite_ofInt {n : Int} (h : n.natAbs < twoTo 64) : ∃ x, ofInt n = .finite x := by
  unfold ofInt ofRatio
  simp only [dif_pos (rankOfRatio_lt h)]
  exact ⟨_, rfl⟩

end Binary64

theorem Json.Word.natAbs_lt (n : Json.Word) : n.val.natAbs < twoTo 64 := by
  obtain ⟨hleast, hgreatest⟩ := n.property
  show n.val.natAbs < 18446744073709551616
  unfold leastInt64 greatestUInt64 at *
  omega

/-! ## Operands -/

/-- The value is a text, or a number that a literal can hold. -/
def Value.isFilling : Value → Bool
  | string _ | int _ | float (.finite _) => true
  | _ => false

namespace Operand

/-- A text, a number, or a list of texts and numbers. -/
def isFlat : Operand → Bool
  | list items => items.all fun item => !item.isList
  | _ => true

theorem isFilling_numberValue (n : Json.Number) : (numberValue n).isFilling = true := by
  cases n with
  | float x => rfl
  | integer n =>
    rw [numberValue]
    split
    · rfl
    · obtain ⟨x, hx⟩ := Binary64.finite_ofInt n.natAbs_lt
      rw [hx]
      rfl

theorem isFilling_toValue {v : Operand} (h : v.isList = false) : v.toValue.isFilling = true := by
  cases v with
  | string s => rfl
  | number n => exact isFilling_numberValue n
  | list items => cases h

theorem isFlat_list {items : List Operand} :
    (list items).isFlat = true ↔ ∀ item ∈ items, item.isList = false := by
  simp only [isFlat, List.all_eq_true, Bool.not_eq_true']

theorem isFilling_toValues {items : List Operand} (h : ∀ item ∈ items, item.isList = false) :
    ∀ v ∈ toValues items, v.isFilling = true := by
  induction items with
  | nil => exact List.forall_mem_nil _
  | cons item rest ih =>
    obtain ⟨hitem, hrest⟩ := List.forall_mem_cons.mp h
    exact List.forall_mem_cons.mpr ⟨isFilling_toValue hitem, ih hrest⟩

/-- A value that is a text or a number is that of no list. -/
theorem isList_of_toValues {items : List Operand} (h : ∀ v ∈ toValues items, v.isFilling = true) :
    ∀ item ∈ items, item.isList = false := by
  induction items with
  | nil => exact List.forall_mem_nil _
  | cons item rest ih =>
    obtain ⟨hitem, hrest⟩ := List.forall_mem_cons.mp h
    refine List.forall_mem_cons.mpr ⟨?_, ih hrest⟩
    cases item with
    | list items => cases hitem
    | _ => rfl

end Operand

/-- **The operands of a flat filter** are texts and numbers. -/
theorem Filter.isFilling_operands {f : Filter} (hflat : f.operand.isFlat = true) {c : Comparison}
    (h : Comparison.build f.chosen f.operand = .ok c) : ∀ v ∈ f.operands, v.isFilling = true := by
  rcases Comparison.build_eq_ok h with ⟨hscalar, _⟩ | ⟨items, hitems, hlist⟩
  · have hvalue := Operand.isFilling_toValue hscalar
    unfold Filter.operands
    split
    · next hlist =>
      rw [hlist] at hscalar
      cases hscalar
    · next hlist =>
      rw [hlist] at hscalar
      cases hscalar
    · exact List.forall_mem_singleton.mpr rfl
    · exact List.forall_mem_singleton.mpr rfl
    · exact List.forall_mem_singleton.mpr hvalue
  · rw [Filter.operands_list hitems (hlist.imp And.left And.left)]
    exact Operand.isFilling_toValues (Operand.isFlat_list.mp (hitems ▸ hflat))

/-! ## Lists of filters -/

/-- All operands are texts, numbers and lists of these. -/
def FilterSet.isFlat (fs : FilterSet) : Bool :=
  (fs.company ++ fs.contact).all fun f => f.operand.isFlat

theorem FilterSet.isFlat_iff {fs : FilterSet} : fs.isFlat = true ↔
    (∀ f ∈ fs.company, f.operand.isFlat = true) ∧ ∀ f ∈ fs.contact, f.operand.isFlat = true := by
  rw [isFlat, List.all_append, Bool.and_eq_true, List.all_eq_true, List.all_eq_true]

/-- **Flat filters that compile** have texts and numbers as operands. -/
theorem Placement.AsksAll.isFilling_operands {p : Placement} {fs : List Filter}
    {asked : List (Field × Comparison)} (h : p.AsksAll fs asked)
    (hflat : ∀ f ∈ fs, f.operand.isFlat = true) :
    ∀ v ∈ fs.flatMap Filter.operands, v.isFilling = true := by
  induction h with
  | nil => exact List.forall_mem_nil _
  | cons hasks _ ih =>
    obtain ⟨hf, hrest⟩ := List.forall_mem_cons.mp hflat
    rw [List.flatMap_cons, List.forall_mem_append]
    exact ⟨Filter.isFilling_operands hf hasks.built, ih hrest⟩

end Targeting
