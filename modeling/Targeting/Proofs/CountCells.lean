import Targeting.Proofs.Freshness
import Targeting.Proofs.OutputNames
import Targeting.Proofs.Wording

/-!
# Counts in cells

Warehouses give counts as integers, as doubles or as texts. A cell says a whole number in each of these ways,
and the count is that number if 64 bits can hold it. A text beyond 64 bits is no count; a double beyond them is
one all the same, but the count is then the bound that it exceeds, which is another number.

* `Text.IsInteger`, **`Text.integer?_eq_some_iff`**: numerals of integers;
* `Binary64.Finite.Is`, `Binary64.Finite.toInt?_eq_some_iff`: whole doubles;
* `Value.Says`, `Value.Overflows`, `Value.Yields`, **`Value.wholeNumber?_eq_some_iff`**: the number in a cell,
  and the count; **`Value.Yields.says_iff`**: when they are the same;
* `Row.FirstNamed`, `Row.count_eq_ok_iff`: the counts in a row;
* `CountsRead`, **`Audience.countsRead`**: the counts of an audience.
-/

namespace Targeting

/-! ## Numerals -/

namespace Text

/-- A word is a numeral for an integer: one for a natural number, or digits after a minus sign. -/
def IsInteger (word : String) (z : Int) : Prop :=
  (∃ n, IsNatural word n ∧ z = n) ∨ ∃ ds, word.toList = '-' :: ds ∧ ds ≠ [] ∧
    (∀ c ∈ ds, c.isDigit = true) ∧ z = -(Nat.ofDigitChars 10 ds 0 : Int)

/-- A text says an integer, with white space around it. -/
def SaysInteger (text : String) (z : Int) : Prop := ∃ word, Surrounds text word ∧ IsInteger word z

/-- Digits that are read under a sign between two bounds. -/
theorem signed_eq_some_iff {lo hi z : Int} {cs : List Char} (sign : Nat → Int) :
    ((digits? cs).bind fun n => if lo ≤ sign n ∧ sign n ≤ hi then some (sign n) else none) = some z ↔
      (cs ≠ [] ∧ (∀ c ∈ cs, c.isDigit = true) ∧ z = sign (Nat.ofDigitChars 10 cs 0)) ∧
        lo ≤ z ∧ z ≤ hi := by
  simp only [Option.bind_eq_some_iff, digits?_eq_some_iff, Option.ite_none_right_eq_some,
    Option.some.injEq]
  constructor
  · rintro ⟨n, ⟨hne, hds, rfl⟩, hbounds, rfl⟩
    exact ⟨⟨hne, hds, rfl⟩, hbounds⟩
  · rintro ⟨⟨hne, hds, rfl⟩, hbounds⟩
    exact ⟨_, ⟨hne, hds, rfl⟩, hbounds, rfl⟩

/-- A numeral for a natural number starts with its plus sign, or with its digits. -/
theorem isNatural_iff {word : String} {n : Nat} : IsNatural word n ↔
    (∃ cs, word.toList = '+' :: cs ∧ cs ≠ [] ∧ (∀ c ∈ cs, c.isDigit = true) ∧
        n = Nat.ofDigitChars 10 cs 0) ∨
      word.toList ≠ [] ∧ (∀ c ∈ word.toList, c.isDigit = true) ∧
        n = Nat.ofDigitChars 10 word.toList 0 := by
  constructor
  · rintro ⟨ds, hne, hds, rfl | hword, hn⟩
    · exact Or.inr ⟨hne, hds, hn.symm⟩
    · exact Or.inl ⟨ds, hword, hne, hds, hn.symm⟩
  · rintro (⟨ds, hword, hne, hds, hn⟩ | ⟨hne, hds, hn⟩)
    · exact ⟨ds, hne, hds, Or.inr hword, hn.symm⟩
    · exact ⟨_, hne, hds, Or.inl rfl, hn.symm⟩

/-- **An integer is read** from its numerals, if it is within the bounds. -/
theorem integer?_eq_some_iff {lo hi z : Int} {word : String} :
    integer? lo hi word = some z ↔ IsInteger word z ∧ lo ≤ z ∧ z ≤ hi := by
  simp only [IsInteger, isNatural_iff]
  unfold integer?
  simp only
  -- What starts with a sign is no run of digits, and nothing starts with both signs.
  split
  · next cs hword =>
    rw [signed_eq_some_iff fun n => n]
    simp [hword, and_assoc]
  · next cs hword =>
    rw [signed_eq_some_iff fun n => -(n : Int)]
    simp [hword]
  · next hplus hminus =>
    rw [signed_eq_some_iff fun n => n]
    refine and_congr_left fun _ => ⟨?_, ?_⟩
    · rintro ⟨hne, hds, hz⟩
      exact Or.inl ⟨_, Or.inr ⟨hne, hds, rfl⟩, hz⟩
    · rintro (⟨n, ⟨cs, hword, -⟩ | ⟨hne, hds, rfl⟩, hz⟩ | ⟨ds, hword, -⟩)
      · exact absurd hword (hplus cs)
      · exact ⟨hne, hds, hz⟩
      · exact absurd hword (hminus ds)

theorem IsInteger.solid {word : String} {z : Int} (h : IsInteger word z) : Solid word := by
  rcases h with ⟨n, hn, -⟩ | ⟨ds, hword, -, hds, -⟩
  · exact hn.solid
  · intro c hc
    rw [hword] at hc
    rcases List.mem_cons.mp hc with rfl | hc
    · decide
    · exact isBlank_of_isDigit (hds c hc)

theorem saysInteger_iff {text : String} {lo hi z : Int} :
    integer? lo hi (trimBlank text) = some z ↔ SaysInteger text z ∧ lo ≤ z ∧ z ≤ hi := by
  rw [integer?_eq_some_iff, SaysInteger, exists_surrounds_iff fun _ => IsInteger.solid]

end Text

/-! ## Whole doubles -/

/-- A finite double is an integer: it is so many times one. -/
def Binary64.Finite.Is (x : Binary64.Finite) (z : Int) : Prop :=
  (if x.negative then -(x.units : Int) else x.units) = z * twoTo 1074

theorem Binary64.Finite.toInt?_eq_some_iff {x : Binary64.Finite} {z : Int} :
    x.toInt? = some z ↔ x.Is z := by
  have hone : (0 : Int) < twoTo 1074 := by exact_mod_cast twoTo_pos 1074
  have hquotient : x.units % twoTo 1074 = 0 →
      (if x.negative then -((x.units / twoTo 1074 : Nat) : Int) else (x.units / twoTo 1074 : Nat)) *
        twoTo 1074 = if x.negative then -(x.units : Int) else x.units := by
    intro hwhole
    have hunits : ((x.units / twoTo 1074 : Nat) : Int) * twoTo 1074 = x.units := by
      exact_mod_cast Nat.div_mul_cancel (Nat.dvd_of_mod_eq_zero hwhole)
    split
    · rw [Int.neg_mul, hunits]
    · exact hunits
  unfold toInt? Is
  constructor
  · intro h
    split at h
    · next hwhole =>
      rw [← Option.some.inj h]
      exact (hquotient hwhole).symm
    · cases h
  · intro h
    have hdvd : (twoTo 1074 : Int) ∣ x.units := by
      split at h
      · exact Int.dvd_neg.mp ⟨z, by rw [h, Int.mul_comm]⟩
      · exact ⟨z, by rw [h, Int.mul_comm]⟩
    have hwhole := Nat.mod_eq_zero_of_dvd (Int.natCast_dvd_natCast.mp hdvd)
    rw [if_pos hwhole, Option.some.injEq]
    exact Int.eq_of_mul_eq_mul_right hone.ne' ((hquotient hwhole).trans h)

/-! ## Cells -/

theorem toInt_ofInt_of_fits {z : Int} (h : FitsInt64 z) : (Int64.ofInt z).toInt = z :=
  Int64.toInt_ofInt_of_le h.1 (Int.lt_add_one_of_le h.2)

theorem fits_toInt (n : Int64) : FitsInt64 n.toInt := ⟨n.le_toInt, Int.le_of_lt_add_one n.toInt_lt⟩

theorem toInt_clamp (z : Int) : (clamp z).toInt = max leastInt64 (min greatestInt64 z) :=
  toInt_ofInt_of_fits ⟨le_max_left _ _, max_le (by decide) (min_le_left _ _)⟩

namespace Value

/-- A value says a whole number: as an integer, as a double, or as a text. -/
inductive Says : Value → Int → Prop
  | integer (n : Int64) : Says (.int n) n.toInt
  | double {x : Binary64.Finite} {z : Int} (h : x.Is z) : Says (.float (.finite x)) z
  | numeral {s : String} {z : Int} (h : Text.SaysInteger s z) : Says (.string s) z

/-- A value is a whole double that 64 bits cannot hold. -/
def Overflows (v : Value) : Prop :=
  ∃ x : Binary64.Finite, ∃ z, v = .float (.finite x) ∧ x.Is z ∧ ¬ FitsInt64 z

/-- A value yields a count: the whole number that it says or, from a double that 64 bits cannot hold, the
bound that it exceeds. -/
inductive Yields (v : Value) (n : Int64) : Prop
  | exact (h : v.Says n.toInt)
  | clamped {x : Binary64.Finite} {z : Int} (hv : v = .float (.finite x)) (h : x.Is z)
    (hz : z < leastInt64 ∧ n.toInt = leastInt64 ∨ greatestInt64 < z ∧ n.toInt = greatestInt64)

/-- **A count is read** from a value exactly if the value yields it. -/
theorem wholeNumber?_eq_some_iff {v : Value} {n : Int64} : v.wholeNumber? = some n ↔ v.Yields n := by
  have hbounds : ∀ z, clamp z = n ↔ n.toInt = z ∨ (z < leastInt64 ∧ n.toInt = leastInt64 ∨
      greatestInt64 < z ∧ n.toInt = greatestInt64) := by
    intro z
    have hn := fits_toInt n
    rw [← Int64.toInt_inj, toInt_clamp]
    omega
  constructor
  · intro h
    unfold wholeNumber? at h
    split at h
    · next m => exact Option.some.inj h ▸ .exact (.integer m)
    · next x =>
      obtain ⟨z, hz, hclamp⟩ := Option.map_eq_some_iff.mp h
      have hx := Binary64.Finite.toInt?_eq_some_iff.mp hz
      rcases (hbounds z).mp hclamp with hn | hn
      · exact .exact (hn ▸ .double hx)
      · exact .clamped rfl hx hn
    · next s =>
      obtain ⟨z, hz, rfl⟩ := Option.map_eq_some_iff.mp h
      obtain ⟨hs, hfits⟩ := Text.saysInteger_iff.mp hz
      exact .exact (by rw [toInt_ofInt_of_fits hfits]; exact .numeral hs)
    · cases h
  · rintro (h | ⟨rfl, hx, hz⟩)
    · generalize hm : n.toInt = m at h
      cases h with
      | integer => exact congrArg some (Int64.toInt_inj.mp hm.symm)
      | double hx =>
        rw [wholeNumber?, Binary64.Finite.toInt?_eq_some_iff.mpr hx, Option.map_some, Option.some.injEq,
          hbounds]
        exact Or.inl hm
      | numeral hs =>
        rw [wholeNumber?, Text.saysInteger_iff.mpr ⟨hs, hm ▸ fits_toInt n⟩, Option.map_some, ← hm,
          Int64.ofInt_toInt]
    · rw [wholeNumber?, Binary64.Finite.toInt?_eq_some_iff.mpr hx, Option.map_some, Option.some.injEq,
        hbounds]
      exact Or.inr hz

/-- **A count is the number that the value says** exactly if the value is no double beyond 64 bits. -/
theorem Yields.says_iff {v : Value} {n : Int64} (h : v.Yields n) : v.Says n.toInt ↔ ¬ v.Overflows := by
  have hunique : ∀ (x : Binary64.Finite) {y z : Int}, x.Is y → x.Is z → y = z := fun x y z hy hz =>
    Option.some.inj ((Binary64.Finite.toInt?_eq_some_iff.mpr hy).symm.trans
      (Binary64.Finite.toInt?_eq_some_iff.mpr hz))
  constructor
  · rintro hsays ⟨x, z, rfl, hx, hz⟩
    generalize hm : n.toInt = m at hsays
    cases hsays with
    | double hy => exact hz (hunique x hx hy ▸ hm ▸ fits_toInt n)
  · intro hfits
    rcases h with h | ⟨rfl, hx, hz⟩
    · exact h
    · exact absurd ⟨_, _, rfl, hx, fun h => by omega⟩ hfits

end Value

/-! ## Rows -/

namespace Row

/-- The value of the first column of a row with a name, in any ASCII case. -/
def FirstNamed (r : Row) (column : String) (v : Value) : Prop :=
  ∃ name before after, r.cells = before ++ (name, v) :: after ∧
    Text.lowerAscii name = Text.lowerAscii column ∧
      ∀ c ∈ before, Text.lowerAscii c.1 ≠ Text.lowerAscii column

/-- A column of a row yields a count. -/
def Yields (r : Row) (column : String) (n : Int64) : Prop := ∃ v, r.FirstNamed column v ∧ v.Yields n

theorem value?_eq_some_iff {r : Row} {column : String} {v : Value} :
    r.value? column = some v ↔ r.FirstNamed column v := by
  rw [value?_eq, Option.map_eq_some_iff]
  constructor
  · rintro ⟨⟨name, v⟩, hfind, rfl⟩
    obtain ⟨hname, before, after, hcells, hbefore⟩ := List.find?_eq_some_iff_append.mp hfind
    exact ⟨name, before, after, hcells, by simpa using hname, by simpa using hbefore⟩
  · rintro ⟨name, before, after, hcells, hname, hbefore⟩
    exact ⟨(name, v), List.find?_eq_some_iff_append.mpr
      ⟨by simpa using hname, before, after, hcells, by simpa using hbefore⟩, rfl⟩

theorem count_eq_ok_iff {r : Row} {sql column : String} {n : Int64} :
    r.count sql column = .ok n ↔ r.Yields column n := by
  have hread : (r.value? column).bind Value.wholeNumber? = some n ↔ r.Yields column n := by
    simp only [Option.bind_eq_some_iff, value?_eq_some_iff, Value.wholeNumber?_eq_some_iff, Yields]
  rw [← hread, count]
  cases (r.value? column).bind Value.wholeNumber? <;> simp

/-- A column that yields no count is reported. -/
theorem count_eq_error {r : Row} {sql column : String} (h : ∀ n, ¬ r.Yields column n) :
    r.count sql column =
      .error (countFailure sql s!"Column '{column}' is missing or not a whole number") := by
  have hnone : (r.value? column).bind Value.wholeNumber? = none := by
    refine Option.eq_none_iff_forall_ne_some.mpr fun n hn => h n ?_
    have hcount : r.count sql column = .ok n := by rw [count, hn]
    exact count_eq_ok_iff.mp hcount
  rw [count, hnone]

end Row

/-! ## The query for counts -/

namespace Audience

variable (a : Audience) (w : Warehouse) (ctx : Context) (o : CompileOptions) (fs : FilterSet)

/-- A warehouse answers the query for counts with rows. -/
def Answered (s : Statement) (rows : List Row) : Prop :=
  a.countsStatement fs (o.withDialect w.dialect) = .ok s ∧
    (w.run ctx .count s.sql s.params).outcome = .ok rows

/-- What becomes of the rows with which a warehouse answers the query for counts. -/
structure CountsRead (outcome : Except Error Counts) : Prop where
  /-- Counts are found exactly if both columns of the first row yield them. -/
  found : ∀ c, outcome = .ok c ↔ ∃ s r rows, a.Answered w ctx o fs s (r :: rows) ∧
    r.Yields "company_count" c.companies ∧ r.Yields "people_count" c.people
  /-- A count is what its cell says exactly if the cell is no whole double beyond 64 bits. -/
  exact_iff : ∀ (r : Row) column n, r.Yields column n → ∀ v, r.FirstNamed column v →
    (v.Says n.toInt ↔ ¬ v.Overflows)
  /-- Otherwise the query fails, by the first column that yields no count, -/
  noCompanies : ∀ s r rows, a.Answered w ctx o fs s (r :: rows) →
    (∀ n, ¬ r.Yields "company_count" n) → outcome = .error (.execution "count" s.sql
      "Column 'company_count' is missing or not a whole number")
  noPeople : ∀ s r rows n, a.Answered w ctx o fs s (r :: rows) → r.Yields "company_count" n →
    (∀ n, ¬ r.Yields "people_count" n) → outcome = .error (.execution "count" s.sql
      "Column 'people_count' is missing or not a whole number")
  /-- or for lack of a row. -/
  noRows : ∀ s, a.Answered w ctx o fs s [] → outcome =
    .error (.execution "count" s.sql "Count query returned no rows")

theorem outcome_of_answered {s : Statement} {rows : List Row} (h : a.Answered w ctx o fs s rows) :
    (a.runCounts w ctx o fs).outcome = countsOf s.sql rows := by
  rw [outcome_runCounts, h.1]
  change (w.run ctx .count s.sql s.params).outcome >>= countsOf s.sql = _
  rw [h.2]
  rfl

theorem countsOf_eq_ok_iff {sql : String} {rows : List Row} {c : Counts} :
    countsOf sql rows = .ok c ↔ ∃ r rest, rows = r :: rest ∧
      r.Yields "company_count" c.companies ∧ r.Yields "people_count" c.people := by
  cases rows with
  | nil => simp [countsOf]
  | cons r rest =>
    rw [countsOf, bind_eq_ok_iff]
    simp only [bind_eq_ok_iff, Row.count_eq_ok_iff]
    constructor
    · rintro ⟨companies, hcompanies, people, hpeople, h⟩
      cases h
      exact ⟨r, rest, rfl, hcompanies, hpeople⟩
    · rintro ⟨r, rest, h, hcompanies, hpeople⟩
      cases h
      exact ⟨_, hcompanies, _, hpeople, rfl⟩

/-- **The counts of an audience** are read from the first row of an answer, whatever the warehouse does. -/
theorem countsRead : a.CountsRead w ctx o fs (a.runCounts w ctx o fs).outcome where
  found c := by
    constructor
    · intro h
      rw [outcome_runCounts] at h
      obtain ⟨s, hs, h⟩ := bind_eq_ok_iff.mp h
      obtain ⟨rows, hrows, h⟩ := bind_eq_ok_iff.mp h
      obtain ⟨r, rest, rfl, hcompanies, hpeople⟩ := countsOf_eq_ok_iff.mp h
      exact ⟨s, r, rest, ⟨hs, hrows⟩, hcompanies, hpeople⟩
    · rintro ⟨s, r, rows, h, hcompanies, hpeople⟩
      rw [a.outcome_of_answered w ctx o fs h]
      exact countsOf_eq_ok_iff.mpr ⟨r, rows, rfl, hcompanies, hpeople⟩
  exact_iff r column n := by
    rintro ⟨u, hu, hn⟩ v hv
    obtain rfl : u = v :=
      Option.some.inj ((Row.value?_eq_some_iff.mpr hu).symm.trans (Row.value?_eq_some_iff.mpr hv))
    exact hn.says_iff
  noCompanies s r rows h hnone := by
    rw [a.outcome_of_answered w ctx o fs h]
    exact bind_eq_error_iff.mpr (Or.inl (r.count_eq_error hnone))
  noPeople s r rows n h hn hnone := by
    rw [a.outcome_of_answered w ctx o fs h]
    exact bind_eq_error_iff.mpr (Or.inr ⟨n, Row.count_eq_ok_iff.mpr hn,
      bind_eq_error_iff.mpr (Or.inl (r.count_eq_error hnone))⟩)
  noRows s h := a.outcome_of_answered w ctx o fs h

/-- A warehouse that answers every query at once with one row. -/
def answering (r : Row) : Warehouse where
  dialect := .postgres
  answer := fun _ _ => { delay := ⟨0⟩, outcome := .ok [r] }

theorem answered_answering (r : Row) : ∃ s,
    Sample.audience.Answered (answering r) { connection := "main" } {} {} s [r] := by
  have hcompiled : ∃ s, Sample.audience.countsStatement {} (CompileOptions.withDialect .postgres {}) =
      .ok s := ⟨_, rfl⟩
  obtain ⟨s, hs⟩ := hcompiled
  exact ⟨s, hs, rfl⟩

/-- Counts are found in a text and in an integer. -/
theorem sample_countsRead :
    let r : Row := ⟨[("COMPANY_COUNT", .string " +34 "), ("people_count", .int 19)]⟩
    (Sample.audience.runCounts (answering r) { connection := "main" } {} {}).outcome = .ok ⟨34, 19⟩ := by
  intro r
  obtain ⟨s, hs⟩ := answered_answering r
  have hblank : ∀ c ∈ [' '], Text.isBlank c = true := List.forall_mem_singleton.mpr (by decide)
  have hdigits : ∀ c ∈ ['3', '4'], c.isDigit = true :=
    List.forall_mem_cons.mpr ⟨by decide, List.forall_mem_singleton.mpr (by decide)⟩
  have hword : Text.SaysInteger " +34 " 34 :=
    ⟨"+34", ⟨[' '], [' '], hblank, hblank, by decide⟩,
      Or.inl ⟨34, ⟨['3', '4'], by decide, hdigits, by decide, by decide⟩, rfl⟩⟩
  exact ((countsRead _ _ _ _ _).found ⟨34, 19⟩).mpr ⟨s, r, [], hs,
    ⟨_, ⟨_, [], _, rfl, by decide, by simp⟩, .exact (.numeral hword)⟩,
    ⟨_, ⟨_, [_], [], rfl, by decide, by decide⟩, .exact (.integer 19)⟩⟩

/-- The least whole double beyond the bounds of 64 bits with sign. -/
def beyondInt64 : Binary64.Finite := ⟨false, 1086 * twoTo 52, by decide⟩

/-- **Beyond 64 bits a count is reported that the cell does not say.** -/
theorem beyondInt64_not_exact :
    let r : Row := ⟨[("company_count", .float (.finite beyondInt64)), ("people_count", .int 19)]⟩
    (Sample.audience.runCounts (answering r) { connection := "main" } {} {}).outcome =
        .ok ⟨9223372036854775807, 19⟩ ∧
      r.FirstNamed "company_count" (.float (.finite beyondInt64)) ∧
      (Value.float (.finite beyondInt64)).Says 9223372036854775808 ∧
      ¬ (Value.float (.finite beyondInt64)).Says 9223372036854775807 := by
  intro r
  have hint : beyondInt64.toInt? = some 9223372036854775808 := by decide +kernel
  have hx := Binary64.Finite.toInt?_eq_some_iff.mp hint
  have hfirst : r.FirstNamed "company_count" (.float (.finite beyondInt64)) :=
    ⟨_, [], _, rfl, by decide, by simp⟩
  obtain ⟨s, hs⟩ := answered_answering r
  refine ⟨?_, hfirst, .double hx, ?_⟩
  · rw [outcome_of_answered _ _ _ _ _ hs]
    exact countsOf_eq_ok_iff.mpr ⟨r, [], rfl,
      ⟨_, hfirst, .clamped rfl hx (Or.inr ⟨by decide, by decide⟩)⟩,
      ⟨_, ⟨_, [_], [], rfl, by decide, by decide⟩, .exact (.integer 19)⟩⟩
  · rintro (_ | hy)
    exact absurd (hint.symm.trans (Binary64.Finite.toInt?_eq_some_iff.mpr hy)) (by decide)

end Audience

end Targeting
