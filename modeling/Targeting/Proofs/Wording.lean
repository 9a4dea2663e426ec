import Mathlib.Data.List.TakeWhile
import Targeting.Proofs.Front
import Targeting.Text.Blank
import Targeting.Text.Caseless

/-!
# What a text says

Names and numbers are read from texts with white space around them, names whatever their ASCII case, and
numbers with a plus sign or without.

* `Text.Surrounds`, `Text.exists_surrounds_iff`: a word with white space around it, and how it is found;
* `Text.Names`, **`Text.names_iff`**, `Text.exists_names_iff`: a text that gives a name;
* `Text.Numbers`, **`Text.numbers_iff`**: a text that gives a natural number.
-/

namespace Targeting.Text

/-! ## White space around a word -/

/-- A text is a word with white space around it. -/
def Surrounds (text word : String) : Prop :=
  ∃ before after : List Char, (∀ c ∈ before, isBlank c = true) ∧ (∀ c ∈ after, isBlank c = true) ∧
    text.toList = before ++ word.toList ++ after

/-- A word has no white space in it. -/
def Solid (word : String) : Prop := ∀ c ∈ word.toList, isBlank c = false

instance (word : String) : Decidable (Solid word) :=
  List.decidableBAll (fun c => isBlank c = false) word.toList

theorem dropBlank_append {before cs : List Char} (h : ∀ c ∈ before, isBlank c = true) :
    dropBlank (before ++ cs) = dropBlank cs :=
  List.dropWhile_append_of_pos h

/-- White space goes at one end if a word without any stands before it, even if that word is empty. -/
theorem dropBlank_solid {cs after : List Char} (hcs : ∀ c ∈ cs, isBlank c = false)
    (hafter : ∀ c ∈ after, isBlank c = true) :
    dropBlank (cs ++ after) = if cs = [] then [] else cs ++ after := by
  cases cs with
  | nil => simpa [dropBlank, List.dropWhile_eq_nil_iff] using hafter
  | cons c cs => simp [dropBlank, hcs c List.mem_cons_self]

theorem trimBlank_eq_of_surrounds {text word : String} (h : Surrounds text word) (hword : Solid word) :
    trimBlank text = word := by
  obtain ⟨before, after, hbefore, hafter, htext⟩ := h
  have htrim : trimBlankChars text.toList = word.toList := by
    rw [trimBlankChars, htext, List.append_assoc, dropBlank_append hbefore, dropBlank_solid hword hafter]
    by_cases hempty : word.toList = []
    · simp [hempty, dropBlank]
    · have hback : ∀ c ∈ word.toList.reverse, isBlank c = false := fun c hc =>
        hword c (List.mem_reverse.mp hc)
      have hsplit := dropBlank_solid hback (List.forall_mem_nil (fun c => isBlank c = true))
      rw [if_neg hempty, List.reverse_append, dropBlank_append (by simpa using hafter)]
      simpa [hempty] using congrArg List.reverse hsplit
  rw [trimBlank, htrim, String.ofList_toList]

theorem surrounds_trimBlank (text : String) : Surrounds text (trimBlank text) := by
  have hblank : ∀ cs : List Char, ∀ c ∈ cs.takeWhile isBlank, isBlank c = true := fun _ _ hc =>
    List.mem_takeWhile_imp hc
  refine ⟨text.toList.takeWhile isBlank, ((dropBlank text.toList).reverse.takeWhile isBlank).reverse,
    hblank _, fun c hc => hblank _ c (List.mem_reverse.mp hc), ?_⟩
  have hinner : dropBlank text.toList =
      trimBlankChars text.toList ++ ((dropBlank text.toList).reverse.takeWhile isBlank).reverse := by
    rw [trimBlankChars, ← List.reverse_append]
    exact (List.reverse_eq_iff.mp (List.takeWhile_append_dropWhile ..).symm).trans rfl
  rw [trimBlank, String.toList_ofList, List.append_assoc, ← hinner]
  exact List.takeWhile_append_dropWhile.symm

/-- A text is a word of some kind with white space around it, if there is none in such words, exactly if it
is one when it is trimmed. -/
theorem exists_surrounds_iff {P : String → Prop} (hP : ∀ word, P word → Solid word) {text : String} :
    (∃ word, Surrounds text word ∧ P word) ↔ P (trimBlank text) := by
  constructor
  · rintro ⟨word, htext, hword⟩
    rwa [trimBlank_eq_of_surrounds htext (hP word hword)]
  · exact fun h => ⟨_, surrounds_trimBlank text, h⟩

/-! ## Names -/

/-- A text gives a name, in any ASCII case and with white space around it. -/
def Names (text name : String) : Prop := ∃ word, Surrounds text word ∧ lowerAscii word = name

/-- Between the space and the end of ASCII there is no white space. -/
theorem isBlank_of_between {c : Char} (hleast : 0x20 < c.toNat) (hgreatest : c.toNat < 0x85) :
    isBlank c = false := by
  simp only [isBlank, Bool.or_eq_false_iff, Bool.and_eq_false_iff, decide_eq_false_iff_not]
  omega

theorem isBlank_toLower (c : Char) : isBlank c.toLower = isBlank c := by
  unfold Char.toLower
  split
  · next h =>
    have hleast : 65 ≤ c.toNat := UInt32.le_iff_toNat_le.mp h.1
    have hgreatest : c.toNat ≤ 90 := UInt32.le_iff_toNat_le.mp h.2
    have hsum : (c.val + 32).toNat = c.toNat + 32 := by
      rw [UInt32.toNat_add, Nat.mod_eq_of_lt]
      · rfl
      · show c.toNat + 32 < 2 ^ 32
        omega
    rw [isBlank_of_between (c := c) (by omega) (by omega)]
    refine isBlank_of_between ?_ ?_
    · show 0x20 < (c.val + 32).toNat
      omega
    · show (c.val + 32).toNat < 0x85
      omega
  · rfl

theorem solid_of_lowerAscii {word : String} (h : Solid (lowerAscii word)) : Solid word := by
  intro c hc
  rw [← isBlank_toLower]
  exact h _ (by simpa [lowerAscii] using ⟨c, hc, rfl⟩)

theorem names_iff {text name : String} (h : Solid name) :
    Names text name ↔ lowerAscii (trimBlank text) = name :=
  exists_surrounds_iff (P := fun word => lowerAscii word = name) fun _ hword =>
    solid_of_lowerAscii (hword.symm ▸ h)

/-- A text gives a name of some kind, if there is no white space in such names, exactly if it is one when it
is trimmed and put in small letters. -/
theorem exists_names_iff {P : String → Prop} (hP : ∀ name, P name → Solid name) {text : String} :
    (∃ name, P name ∧ Names text name) ↔ P (lowerAscii (trimBlank text)) := by
  constructor
  · rintro ⟨name, hname, htext⟩
    rwa [(names_iff (hP name hname)).mp htext]
  · exact fun h => ⟨_, h, (names_iff (hP _ h)).mpr rfl⟩

/-! ## Numbers -/

/-- A word is a numeral for a natural number: one digit or several, perhaps after a plus sign. -/
def IsNatural (word : String) (n : Nat) : Prop :=
  ∃ ds : List Char, ds ≠ [] ∧ (∀ c ∈ ds, c.isDigit = true) ∧
    (word.toList = ds ∨ word.toList = '+' :: ds) ∧ Nat.ofDigitChars 10 ds 0 = n

/-- A text gives a natural number, with white space around it. -/
def Numbers (text : String) (n : Nat) : Prop := ∃ word, Surrounds text word ∧ IsNatural word n

theorem digitsFrom?_eq_some_iff {ds : List Char} {acc n : Nat} :
    digitsFrom? acc ds = some n ↔ (∀ c ∈ ds, c.isDigit = true) ∧ Nat.ofDigitChars 10 ds acc = n := by
  constructor
  · intro h
    have hds : ∀ c ∈ ds, c.isDigit = true := by
      induction ds generalizing acc with
      | nil => exact List.forall_mem_nil _
      | cons c ds ih =>
        rw [digitsFrom?, digit?] at h
        by_cases hc : c.isDigit = true
        · rw [if_pos hc] at h
          exact List.forall_mem_cons.mpr ⟨hc, ih h⟩
        · rw [if_neg hc] at h
          cases h
    rw [digitsFrom?_eq hds] at h
    exact ⟨hds, Option.some.inj h⟩
  · rintro ⟨hds, rfl⟩
    exact digitsFrom?_eq hds acc

theorem digits?_eq_some_iff {ds : List Char} {n : Nat} :
    digits? ds = some n ↔ ds ≠ [] ∧ (∀ c ∈ ds, c.isDigit = true) ∧ Nat.ofDigitChars 10 ds 0 = n := by
  cases ds with
  | nil => simp [digits?]
  | cons c ds => simp [digits?, digitsFrom?_eq_some_iff]

theorem natural?_eq_some_iff {bound n : Nat} {word : String} :
    natural? bound word = some n ↔ IsNatural word n ∧ n ≤ bound := by
  have hread : ∀ cs, (digits? cs).filter (· ≤ bound) = some n ↔
      (cs ≠ [] ∧ (∀ c ∈ cs, c.isDigit = true) ∧ Nat.ofDigitChars 10 cs 0 = n) ∧ n ≤ bound := by
    intro cs
    rw [Option.filter_eq_some_iff, digits?_eq_some_iff, decide_eq_true_iff]
  unfold natural?
  simp only
  split
  · next cs hsign =>
    rw [hread]
    refine and_congr_left fun _ => ⟨fun ⟨hne, hds, hn⟩ => ⟨cs, hne, hds, Or.inr hsign, hn⟩, ?_⟩
    rintro ⟨ds, hne, hds, hword | hword, hn⟩
    · -- A plus sign is no digit, so the digits start behind it.
      have hplus := hds '+' (by rw [← hword, hsign]; exact List.mem_cons_self)
      exact absurd hplus (by decide)
    · obtain rfl : ds = cs := List.tail_eq_of_cons_eq (hword.symm.trans hsign)
      exact ⟨hne, hds, hn⟩
  · next hsign =>
    rw [hread]
    refine and_congr_left fun _ => ⟨fun ⟨hne, hds, hn⟩ => ⟨_, hne, hds, Or.inl rfl, hn⟩, ?_⟩
    rintro ⟨ds, hne, hds, hword | hword, hn⟩
    · exact hword ▸ ⟨hne, hds, hn⟩
    · exact absurd hword (hsign ds)

theorem isBlank_of_isDigit {c : Char} (h : c.isDigit = true) : isBlank c = false := by
  simp only [Char.isDigit, Bool.and_eq_true, decide_eq_true_eq] at h
  have hleast : 48 ≤ c.toNat := UInt32.le_iff_toNat_le.mp h.1
  have hgreatest : c.toNat ≤ 57 := UInt32.le_iff_toNat_le.mp h.2
  exact isBlank_of_between (by omega) (by omega)

theorem IsNatural.solid {word : String} {n : Nat} (h : IsNatural word n) : Solid word := by
  obtain ⟨ds, -, hds, hword | hword, -⟩ := h
  · exact fun c hc => isBlank_of_isDigit (hds c (hword ▸ hc))
  · intro c hc
    rw [hword] at hc
    rcases List.mem_cons.mp hc with rfl | hc
    · decide
    · exact isBlank_of_isDigit (hds c hc)

theorem numbers_iff {text : String} {bound n : Nat} :
    natural? bound (trimBlank text) = some n ↔ Numbers text n ∧ n ≤ bound := by
  rw [natural?_eq_some_iff, Numbers, exists_surrounds_iff fun _ => IsNatural.solid]

end Targeting.Text
