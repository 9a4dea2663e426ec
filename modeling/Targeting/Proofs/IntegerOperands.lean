import Targeting.Proofs.FilterTexts
import Targeting.Proofs.LargeIntegers
import Targeting.Proofs.Parameters
import Targeting.Proofs.Statements

/-!
# Integers as operands

Filters may have integers of 64 bits with sign or without. They are read as they are, but become values of 64
bits with sign or doubles. So an integer beyond 63 bits is written into SQL as another one in most cases: as the
shortest decimal of its double.

* `Json.Word.WrittenAs`, `Json.Word.Kept`, **`Json.Word.WrittenAs.eq_iff`**: the integer that is written in
  place of another one, and when they are the same; **`Operand.exists_writtenAs`**: its literal;
* `Inlines`: statements with literals;
* **`Audience.integersWritten`**: what becomes of the integers in filters.
-/

namespace Targeting

open Binary64 Scientific

/-! ## Literals of integers -/

namespace Json.Word

/-- An integer is written as an integer: as itself if 64 bits with sign can hold it, and otherwise as the
shortest decimal of its double. -/
def WrittenAs (n : Json.Word) (m : Int) : Prop :=
  FitsInt64 n.val ∧ m = n.val ∨
    ∃ k l : Nat, n.val = k ∧ m = l ∧ IsLarge k ∧ ShortestFor k l

/-- An integer keeps its value: 64 bits with sign can hold it, or it happens to be the shortest decimal of its
double. -/
def Kept (n : Json.Word) : Prop := FitsInt64 n.val ∨ ∃ k : Nat, n.val = k ∧ IsLarge k ∧ ShortestFor k k

/-- Without 64 bits with sign an integer is a large one. -/
theorem exists_large {n : Json.Word} (h : ¬ FitsInt64 n.val) : ∃ k : Nat, n.val = k ∧ IsLarge k := by
  obtain ⟨hleast, hgreatest⟩ := n.property
  have hlarge : greatestInt64 < n.val := by
    by_contra hsmall
    exact h ⟨hleast, Int.not_lt.mp hsmall⟩
  unfold greatestInt64 greatestUInt64 at *
  refine ⟨n.val.toNat, by omega, ?_⟩
  unfold IsLarge
  omega

theorem not_fits_of_large {k : Nat} (h : IsLarge k) : ¬ FitsInt64 k := by
  rintro ⟨-, hfits⟩
  have := h.1
  unfold greatestInt64 at hfits
  omega

/-- **An integer is written as one integer only.** -/
theorem WrittenAs.unique {n : Json.Word} {l m : Int} (hl : n.WrittenAs l) (hm : n.WrittenAs m) : l = m := by
  rcases hl with ⟨hfits, rfl⟩ | ⟨k, l, hk, rfl, hlarge, hl⟩
  · rcases hm with ⟨-, rfl⟩ | ⟨k, m, hk, rfl, hlarge, -⟩
    · rfl
    · exact absurd (hk ▸ hfits) (not_fits_of_large hlarge)
  · rcases hm with ⟨hfits, rfl⟩ | ⟨k', m, hk', rfl, -, hm⟩
    · exact absurd (hk ▸ hfits) (not_fits_of_large hlarge)
    · obtain rfl : k = k' := Int.natCast_inj.mp (hk.symm.trans hk')
      rw [hl.unique hlarge hm]

/-- **An integer is written as itself** exactly if it keeps its value. -/
theorem WrittenAs.eq_iff {n : Json.Word} {m : Int} (h : n.WrittenAs m) : m = n.val ↔ n.Kept := by
  constructor
  · rintro rfl
    rcases h with ⟨hfits, -⟩ | ⟨k, l, hk, hl, hlarge, hshortest⟩
    · exact Or.inl hfits
    · obtain rfl : k = l := Int.natCast_inj.mp (hk.symm.trans hl)
      exact Or.inr ⟨k, hk, hlarge, hshortest⟩
  · rintro (hfits | ⟨k, hk, hlarge, hshortest⟩)
    · exact h.unique (Or.inl ⟨hfits, rfl⟩)
    · exact h.unique (Or.inr ⟨k, k, hk, hk, hlarge, hshortest⟩)

/-- Different integers are written as different numerals. -/
theorem WrittenAs.toString_eq_iff {n : Json.Word} {m : Int} (h : n.WrittenAs m) :
    toString m = toString n.val ↔ m = n.val := by
  refine ⟨fun htext => ?_, fun heq => heq ▸ rfl⟩
  rcases h with ⟨-, heq⟩ | ⟨k, l, hk, rfl, -, -⟩
  · exact heq
  · rw [hk] at htext ⊢
    have hdigits := congrArg String.toList htext
    exact congrArg Int.ofNat (toDigits_inj.mp (Nat.toList_repr.symm.trans (hdigits.trans Nat.toList_repr)))

end Json.Word

theorem writeFinite_rank {r : Nat} (h : r < rankCount) (hpos : 0 < r) :
    Style.plain.writeFinite ⟨false, r, h⟩ = String.ofList (Style.plain.layOut (ofRank .up r)) := by
  have hzero : Finite.isZero ⟨false, r, h⟩ = false := decide_eq_false hpos.ne'
  rw [Style.writeFinite, Style.digitsOf, hzero]
  rfl

/-- The text of a double that is rounded from a large integer. -/
theorem exists_literal_large {n : Nat} (h : IsLarge n) :
    ∃ m : Nat, ShortestFor n m ∧ (Value.float (ofInt n)).literal = toString m := by
  obtain ⟨m, hm, hdigits⟩ := exists_shortestFor h
  have hpos : 0 < rankOfRatio n 1 := by
    rw [rankOfRatio_large h]
    have := twoTo_pos 52
    omega
  refine ⟨m, hm, ?_⟩
  rw [ofInt_large h, Value.literal, writeFinite_rank _ hpos, hdigits]
  rfl

/-- **The literal of an integer** is the numeral of the integer that it is written as. -/
theorem Operand.exists_writtenAs (n : Json.Word) :
    ∃ m, n.WrittenAs m ∧ (Operand.number (.integer n)).toValue.literal = toString m := by
  by_cases hfits : FitsInt64 n.val
  · refine ⟨n.val, Or.inl ⟨hfits, rfl⟩, ?_⟩
    rw [Operand.toValue, Operand.numberValue, if_pos hfits, Value.literal, toInt_ofInt_of_fits hfits]
  · obtain ⟨k, hk, hlarge⟩ := Json.Word.exists_large hfits
    obtain ⟨l, hl, hliteral⟩ := exists_literal_large hlarge
    refine ⟨l, Or.inr ⟨k, l, hk, rfl, hlarge, hl⟩, ?_⟩
    rw [Operand.toValue, Operand.numberValue, if_neg hfits, hk, hliteral]
    rfl

/-! ## Filters -/

/-- An integer becomes a text: the numeral of the integer that it is written as. It is its own numeral exactly
if the integer keeps its value. -/
def Json.Word.Becomes (n : Json.Word) (text : String) : Prop :=
  (∃ m : Int, text = toString m ∧ n.WrittenAs m) ∧ (text = toString n.val ↔ n.Kept)

theorem Operand.becomes_literal (n : Json.Word) :
    n.Becomes (Operand.number (.integer n)).toValue.literal := by
  obtain ⟨m, hm, hliteral⟩ := Operand.exists_writtenAs n
  refine ⟨⟨m, hliteral, hm⟩, ?_⟩
  rw [hliteral, hm.toString_eq_iff, hm.eq_iff]

/-- The operand of a filter that compares with a number is the number. -/
theorem Filter.operands_number {f : Filter} {n : Json.Number} (hf : f.operand = .number n)
    (hcontains : f.chosen ≠ .contains) (hnot : f.chosen ≠ .notContains) :
    f.operands = [(Operand.number n).toValue] := by
  unfold operands
  rw [hf]
  split <;> simp_all

theorem Operand.toValues_eq_map (items : List Operand) : toValues items = items.map toValue := by
  induction items with
  | nil => rfl
  | cons v rest ih => rw [toValues, ih, List.map_cons]

/-! ## Statements -/

/-- A statement with literals is woven from segments and the literals of operands. With places it has the same
segments, and the operands beside it. -/
def Inlines (statement : CompileOptions → Except Error Statement) (o : CompileOptions)
    (operands : List Value) : Prop :=
  ∀ s, statement (o.withValueMode .inline) = .ok s → ∃ segments b,
    statement (o.withValueMode .bound) = .ok b ∧ b.params = operands ∧
    segments.length = operands.length + 1 ∧ b.sql = weave segments (o.dialect.places operands.length) ∧
    s.sql = weave segments (operands.map Value.literal)

theorem inlines_of_oneQuery {statement : CompileOptions → Except Error Statement} {o : CompileOptions}
    {operands : List Value} (h : OneQuery statement o)
    (hcarries : ∀ b, statement (o.withValueMode .bound) = .ok b → b.params = operands) :
    Inlines statement o operands := by
  intro s hs
  rcases h with ⟨e, he⟩ | ⟨segments, params, warnings, hlength, hboth⟩
  · have herror : statement (o.withValueMode .inline) = .error e := he o.dialect .inline
    rw [herror] at hs
    cases hs
  · obtain ⟨hbound, hinline⟩ := hboth o.dialect
    have hparams : params = operands := hcarries _ hbound
    subst hparams
    have hsql : statement (o.withValueMode .inline) = _ := hinline
    rw [hsql] at hs
    cases hs
    exact ⟨segments, _, hbound, rfl, hlength, rfl, rfl⟩

namespace Audience

/-- What becomes of the integers in filters, from their numerals in the text of the filters to those in
statements with literals. -/
structure IntegersWritten (a : Audience) (fs : FilterSet) (limit : Option Nat) (o : CompileOptions) :
    Prop where
  /-- Integers are read as they are, in any text of filters, -/
  read : ∀ (l : Json.Layout) (s : FilterSet), (∀ f ∈ s.company ++ s.contact, f.operand.Fits) →
    FilterSet.ofText (String.ofList (l.chars 0 s.toSortedJson)) = .ok s
  /-- and written as something that may be another integer, when a column is compared with them -/
  single : ∀ f : Filter, ∀ n, f.operand = .number (.integer n) → f.chosen ≠ .contains →
    f.chosen ≠ .notContains → ∃ text, f.operands.map Value.literal = [text] ∧ n.Becomes text
  /-- or looked up among them. -/
  items : ∀ f : Filter, ∀ items : List Operand, f.operand = .list items →
    f.chosen = .isIn ∨ f.chosen = .notIn → f.operands.length = items.length ∧
      ∀ (i : Nat) (n : Json.Word), items[i]? = some (.number (.integer n)) →
        ∃ text, (f.operands.map Value.literal)[i]? = some text ∧ n.Becomes text
  /-- All statements are woven from such texts. -/
  listing : Inlines (a.listingStatement fs limit) o fs.operands
  counts : Inlines (a.countsStatement fs) o fs.operands
  company : Inlines (a.companyStatement fs limit) o (fs.company.flatMap Filter.operands)
  contact : Inlines (a.contactStatement fs limit) o fs.operands

/-- **What becomes of integers**, whatever the filters and the options are. -/
theorem integersWritten (a : Audience) (fs : FilterSet) (limit : Option Nat) (o : CompileOptions) :
    a.IntegersWritten fs limit o where
  read l _ := FilterSet.ofText_chars l
  single f n hf hcontains hnot := by
    rw [Filter.operands_number hf hcontains hnot]
    exact ⟨_, rfl, Operand.becomes_literal n⟩
  items f items hf hop := by
    rw [Filter.operands_list hf hop]
    refine ⟨Operand.length_toValues items, fun i n hi => ⟨_, ?_, Operand.becomes_literal n⟩⟩
    rw [Operand.toValues_eq_map, List.getElem?_map, List.getElem?_map, hi]
    rfl
  listing := inlines_of_oneQuery (a.listing_oneQuery fs limit o) fun _ hb => (a.listing_carries fs limit o hb).1
  counts := inlines_of_oneQuery (a.counts_oneQuery fs o) fun _ hb => (a.counts_carry fs o hb).1
  company := inlines_of_oneQuery (a.company_oneQuery fs limit o) fun _ hb => (a.company_carries fs limit o hb).1
  contact := inlines_of_oneQuery (a.contact_oneQuery fs limit o) fun _ hb => (a.contact_carries fs limit o hb).1

/-- The companies with so many employees. -/
def withEmployees (n : Json.Word) : Filter :=
  { field := "employee_count", operator := "equals", operand := .number (.integer n) }

/-- Ten quintillion has more than 63 bits and keeps its value. -/
theorem tenQuintillion_kept : Json.Word.Kept ⟨10000000000000000000, by decide⟩ := by
  have hwritten := integersWritten Sample.audience {} none {}
  obtain ⟨text, htext, -, hkept⟩ := hwritten.single (withEmployees ⟨10000000000000000000, by decide⟩) _ rfl
    (by decide) (by decide)
  have hliteral : (withEmployees ⟨10000000000000000000, by decide⟩).operands.map Value.literal =
      ["10000000000000000000"] := by decide +kernel
  exact hkept.mp (List.singleton_inj.mp (htext.symm.trans hliteral))

/-- The companies with as many employees as 64 bits without sign can say. -/
def withGreatest : FilterSet where
  company := [withEmployees ⟨18446744073709551615, by decide⟩]

/-- Their text. -/
def greatestText : String :=
  "\x7b\"companyFilters\":[\x7b\"field\":\"employee_count\",\"operator\":\"equals\"," ++
    "\"value\":18446744073709551615\x7d],\"contactFilters\":[]\x7d"

/-- **The greatest integer of 64 bits is compared with as another one.** -/
theorem greatest_not_written :
    FilterSet.ofText greatestText = .ok withGreatest ∧
      (∃ s, Sample.audience.countsStatement withGreatest (({} : CompileOptions).withValueMode .inline) =
          .ok s ∧
        s.sql = "WITH qualified_companies AS (SELECT DISTINCT c.company_id FROM companies c" ++
          " WHERE c.employee_count = 18446744073709552000)" ++
          " SELECT (SELECT COUNT(DISTINCT company_id) FROM qualified_companies) AS company_count," ++
          " (SELECT COUNT(DISTINCT p.id) FROM contacts p INNER JOIN qualified_companies ON" ++
          " p.company_id = qualified_companies.company_id) AS people_count") ∧
      withGreatest.operands.map Value.literal ≠ ["18446744073709551615"] := by
  have htext : greatestText = String.ofList (Json.Layout.compact.chars 0 withGreatest.toSortedJson) := by
    decide +kernel
  refine ⟨?_, ⟨_, rfl, by decide +kernel⟩, by decide +kernel⟩
  rw [htext]
  exact FilterSet.ofText_chars .compact (List.forall_mem_singleton.mpr ⟨trivial, by decide⟩)

end Audience

end Targeting
