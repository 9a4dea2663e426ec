import Targeting.Proofs.Rendering

/-!
# Text literals in the warehouses

A text operand is written in the same way for every dialect, with its quotes doubled. All warehouses read
a doubled quote as one quote; some of them also read a backslash together with the character that follows
it as one character. For these a backslash in an operand is not its own literal, and before a quote it
even moves the end of the literal.

* `LiteralRule.read`: how a warehouse reads a text literal, and what it leaves unread;
* `literalWeight`: what a text costs as a literal; `LiteralRule.weight_of_readBody`: where a literal ends;
* `EngineRules`: what is known of the rules of the dialects;
* **`EngineRules.read_inline_iff`**: when an operand is read back.
-/

namespace Targeting

/-- What a backslash in a text literal is: a character like others, or the first of two that stand for one.
Before a quote and before another backslash it gives these; `sense` says what it gives before others. -/
inductive LiteralRule
  | doubling
  | escaping (sense : Char → Char)

namespace LiteralRule

/-- The character that two characters within a literal stand for together. -/
def pair? : LiteralRule → Char → Char → Option Char
  | _, '\'', '\'' => some '\''
  | escaping sense, '\\', c => some (if c = '\'' || c = '\\' then c else sense c)
  | _, _, _ => none

/-- What stands before the closing quote, and what follows it. -/
def readBody (rule : LiteralRule) : List Char → Option (List Char × List Char)
  | [] => none
  | [c] => if c = '\'' then some ([], []) else none
  | c :: d :: cs =>
    match rule.pair? c d with
    | some e => (rule.readBody cs).map (Prod.map (e :: ·) id)
    | none =>
      if c = '\'' then some ([], d :: cs) else (rule.readBody (d :: cs)).map (Prod.map (c :: ·) id)

/-- The text of the literal at the front, and what follows the literal. -/
def read (rule : LiteralRule) (text : String) : Option (String × String) :=
  match text.toList with
  | '\'' :: cs => (rule.readBody cs).map (Prod.map String.ofList String.ofList)
  | _ => none

variable {rule : LiteralRule}

/-- Reading a literal is reading what follows its opening quote. -/
theorem read_quote_iff {s rest : String} : rule.read (quote s ++ rest) = some (s, rest) ↔
    rule.readBody (doubleQuotes s.toList ++ '\'' :: rest.toList) = some (s.toList, rest.toList) := by
  have hchars : (quote s ++ rest).toList =
      '\'' :: (doubleQuotes s.toList ++ '\'' :: rest.toList) := by
    simp [quote, String.toList_append]
  rw [read, hchars]
  simp only [Option.map_eq_some_iff, Prod.exists, Prod.map_apply, Prod.mk.injEq]
  constructor
  · rintro ⟨text, left, hread, rfl, rfl⟩
    simpa using hread
  · exact fun hread => ⟨_, _, hread, String.ofList_toList, String.ofList_toList⟩

@[simp]
theorem pair?_quotes : rule.pair? '\'' '\'' = some '\'' := by
  cases rule <;> rfl

theorem pair?_quote {c : Char} (h : c ≠ '\'') : rule.pair? '\'' c = none := by
  cases rule <;> simp [pair?, h]

theorem pair?_plain {c : Char} (hquote : c ≠ '\'') (h : rule = doubling ∨ c ≠ '\\') (d : Char) :
    rule.pair? c d = none := by
  cases rule <;> simp_all [pair?]

/-! ## Literals that are read back -/

/-- The closing quote is not one of two. -/
theorem readBody_close {rest : List Char} (h : rest.head? ≠ some '\'') :
    rule.readBody ('\'' :: rest) = some ([], rest) := by
  cases rest with
  | nil => rfl
  | cons c cs =>
    rw [readBody, pair?_quote fun hc => h (congrArg some hc)]
    rfl

/-- **Doubled quotes are read back** if no backslash means something else. -/
theorem readBody_doubleQuotes {cs rest : List Char} (h : rule = doubling ∨ '\\' ∉ cs)
    (hrest : rest.head? ≠ some '\'') :
    rule.readBody (doubleQuotes cs ++ '\'' :: rest) = some (cs, rest) := by
  induction cs with
  | nil => exact readBody_close hrest
  | cons c cs ih =>
    have htail := ih (h.imp_right fun hc hmem => hc (List.mem_cons_of_mem _ hmem))
    rw [doubleQuotes]
    split
    · next hquote =>
      rw [List.cons_append, List.cons_append, readBody, pair?_quotes, htail, hquote]
      rfl
    · next hquote =>
      have hplain := pair?_plain hquote (h.imp_right fun hc heq => hc (heq ▸ List.mem_cons_self))
      obtain ⟨d, ds, hds⟩ := List.exists_cons_of_ne_nil
        (List.append_ne_nil_of_right_ne_nil (doubleQuotes cs) (List.cons_ne_nil '\'' rest))
      rw [List.cons_append, hds, readBody, hplain d, if_neg hquote, ← hds, htail]
      rfl

/-! ## Where a literal ends -/

end LiteralRule

/-- A text weighs two for every character but one for a quote. -/
def literalWeight : List Char → Nat
  | [] => 0
  | c :: cs => (if c = '\'' then 1 else 2) + literalWeight cs

/-- A text between its quotes weighs two for each of its characters, and one for the closing quote. -/
theorem weight_doubleQuotes (cs : List Char) :
    literalWeight (doubleQuotes cs ++ ['\'']) = 2 * cs.length + 1 := by
  induction cs with
  | nil => rfl
  | cons c cs ih =>
    rw [doubleQuotes]
    split <;> simp_all [literalWeight] <;> omega

theorem mem_doubleQuotes {c : Char} {cs : List Char} : c ∈ doubleQuotes cs ↔ c ∈ cs := by
  induction cs with
  | nil => rfl
  | cons d cs ih =>
    rw [doubleQuotes]
    split <;> simp_all

namespace LiteralRule

variable {sense : Char → Char}

theorem pair?_eq_some {c d e : Char} (h : (escaping sense).pair? c d = some e) :
    c = '\'' ∧ d = '\'' ∨ c = '\\' := by
  unfold pair? at h
  split at h
  · exact Or.inl ⟨rfl, rfl⟩
  · exact Or.inr rfl
  · cases h

theorem pair?_eq_none {c d : Char} (h : (escaping sense).pair? c d = none) : c ≠ '\\' := by
  rintro rfl
  cases h

/-- **What is read weighs two for each character** and one for the closing quote, but more than that with a
backslash in it. -/
theorem weight_of_readBody {cs text rest : List Char}
    (h : (escaping sense).readBody cs = some (text, rest)) :
    ∃ used, cs = used ++ rest ∧ 2 * text.length + 1 ≤ literalWeight used ∧
      ('\\' ∈ used → 2 * text.length + 1 < literalWeight used) := by
  fun_induction readBody (escaping sense) cs generalizing text with
  | case1 => cases h
  | case2 =>
    obtain ⟨rfl, rfl⟩ := Prod.mk.inj (Option.some.inj h)
    exact ⟨['\''], rfl, by decide, by decide⟩
  | case3 => cases h
  | case4 c d cs e hpair ih =>
    obtain ⟨⟨tail, _⟩, htail, heq⟩ := Option.map_eq_some_iff.mp h
    obtain ⟨rfl, rfl⟩ := Prod.mk.inj heq
    obtain ⟨used, rfl, hle, hlt⟩ := ih htail
    refine ⟨c :: d :: used, rfl, ?_⟩
    simp only [literalWeight, List.length_cons]
    rcases pair?_eq_some hpair with ⟨rfl, rfl⟩ | rfl
    -- Two quotes weigh two; a backslash with any character weighs more.
    · refine ⟨by simp only [if_true]; omega, fun hmem => ?_⟩
      have hused := hlt (by simpa using hmem)
      simp only [if_true]
      omega
    · rw [if_neg (by decide)]
      split <;> exact ⟨by omega, fun _ => by omega⟩
  | case5 =>
    obtain ⟨rfl, rfl⟩ := Prod.mk.inj (Option.some.inj h)
    exact ⟨['\''], rfl, by decide, by decide⟩
  | case6 c d cs hpair hquote ih =>
    obtain ⟨⟨tail, _⟩, htail, heq⟩ := Option.map_eq_some_iff.mp h
    obtain ⟨rfl, rfl⟩ := Prod.mk.inj heq
    obtain ⟨used, hused, hle, hlt⟩ := ih htail
    refine ⟨c :: used, congrArg (c :: ·) hused, ?_⟩
    simp only [literalWeight, if_neg hquote, List.length_cons]
    refine ⟨by omega, fun hmem => ?_⟩
    have htailWeight := hlt ((List.mem_cons.mp hmem).resolve_left (pair?_eq_none hpair).symm)
    omega

/-- **A text with a backslash is not read back**: its literal does not weigh more than the text. -/
theorem readBody_ne {cs rest : List Char} (h : '\\' ∈ cs) :
    (escaping sense).readBody (doubleQuotes cs ++ '\'' :: rest) ≠ some (cs, rest) := by
  intro hread
  obtain ⟨used, hused, _, hlt⟩ := weight_of_readBody hread
  have hliteral : doubleQuotes cs ++ ['\''] = used := by
    rw [List.append_cons] at hused
    exact List.append_cancel_right hused
  rw [← hliteral, weight_doubleQuotes] at hlt
  exact absurd (hlt (List.mem_append_left _ (mem_doubleQuotes.mpr h))) (Nat.lt_irrefl _)

end LiteralRule

/-! ## Dialects -/

/-- How the warehouses of the dialects read text literals. Of one of them nothing is known. -/
structure EngineRules where
  rule : Dialect → LiteralRule
  postgres : rule .postgres = .doubling
  sqlite : rule .sqlite = .doubling
  snowflake : ∃ sense, rule .snowflake = .escaping sense

namespace EngineRules

/-- **A text operand is read back** by the warehouse of a dialect, and what follows its literal is left,
exactly if backslashes mean nothing there or the operand has none. -/
theorem read_inline_iff (w : EngineRules) (d : Dialect) (i : Nat) (s rest : String)
    (h : rest.toList.head? ≠ some '\'') :
    (w.rule d).read (Sql.mark d .inline i (.string s) ++ rest) = some (s, rest) ↔
      w.rule d = .doubling ∨ '\\' ∉ s.toList := by
  rw [Sql.mark, Value.literal, LiteralRule.read_quote_iff]
  constructor
  · intro hread
    cases hrule : w.rule d with
    | doubling => exact Or.inl rfl
    | escaping sense =>
      rw [hrule] at hread
      exact Or.inr fun hmem => LiteralRule.readBody_ne hmem hread
  · exact fun hplain => LiteralRule.readBody_doubleQuotes hplain h

/-- The rules by which a backslash before any character gives this character, if it is an escape at all. -/
def common : EngineRules where
  rule
    | .postgres | .redshift | .sqlite => .doubling
    | .snowflake => .escaping id
  postgres := rfl
  sqlite := rfl
  snowflake := ⟨id, rfl⟩

/-- A name with a quote is read back from a comparison. -/
theorem common_read_name :
    " AND c.active".toList.head? ≠ some '\'' ∧
      (common.rule .snowflake).read (Sql.mark .snowflake .inline 1 (.string "O'Brien") ++ " AND c.active") =
        some ("O'Brien", " AND c.active") := by
  have h : " AND c.active".toList.head? ≠ some '\'' := by decide
  exact ⟨h, (common.read_inline_iff .snowflake 1 "O'Brien" _ h).mpr (Or.inr (by decide))⟩

/-- **Behind a backslash a quote leaves the rest of the operand outside** the literal. -/
theorem common_read_escaped :
    ¬ ∀ (d : Dialect) (s rest : String), rest.toList.head? ≠ some '\'' →
      (common.rule d).read (Sql.mark d .inline 1 (.string s) ++ rest) = some (s, rest) := by
  intro h
  have hread := h .snowflake "\\' OR 1=1 --" " LIMIT 10" (by decide)
  have hescaped : (common.rule .snowflake).read
      (Sql.mark .snowflake .inline 1 (.string "\\' OR 1=1 --") ++ " LIMIT 10") =
        some ("'", " OR 1=1 --' LIMIT 10") := by rfl
  rw [hescaped] at hread
  exact absurd hread (by decide)

end EngineRules

end Targeting
