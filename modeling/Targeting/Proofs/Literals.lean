import Targeting.Proofs.Searching

/-!
# Text literals

A text is put between quotes with each quote inside written twice, and read back by taking the quotes off both
ends and one out of every two inside. So a literal is known by its shape: between the outer quotes every run of
quotes is of even length. Each literal holds one text, and no other text between quotes holds any.

* `betweenQuotes?_eq_some_iff`, `halveQuotes?_eq_some_iff`: what the two steps of reading accept;
* `QuoteRun`, `PairsQuotes`, **`exists_halveQuotes?_iff`**: runs of quotes, and when they can be halved;
* `IsTextLiteral`: the shape of a literal;
* **`unquote?_inverts_quote`**: reading accepts just what writing produces.
-/

namespace Targeting

/-! ## Both steps of reading -/

theorem betweenQuotes?_eq_some_iff {cs body : List Char} :
    betweenQuotes? cs = some body ↔ cs = '\'' :: (body ++ ['\'']) := by
  constructor
  · intro h
    unfold betweenQuotes? at h
    split at h
    · split at h
      · next cs hlast =>
        cases h
        rw [List.dropLast_append_getLast? _ hlast]
      · cases h
    · cases h
  · rintro rfl
    simp [betweenQuotes?]

/-- Halving accepts just what doubling produces. -/
theorem halveQuotes?_eq_some_iff {ds cs : List Char} : halveQuotes? ds = some cs ↔ ds = doubleQuotes cs := by
  constructor
  · intro h
    induction ds using halveQuotes?.induct generalizing cs with
    | case1 =>
      cases h
      rfl
    | case2 ds ih =>
      rw [halveQuotes?] at h
      obtain ⟨cs, hcs, rfl⟩ := Option.map_eq_some_iff.mp h
      rw [doubleQuotes, if_pos rfl, ← ih hcs]
    | case3 ds halone =>
      rw [halveQuotes?, if_pos rfl] at h
      · cases h
      · exact halone
    | case4 d ds hpair hd ih =>
      rw [halveQuotes?, if_neg hd] at h
      · obtain ⟨cs, hcs, rfl⟩ := Option.map_eq_some_iff.mp h
        rw [doubleQuotes, if_neg hd, ← ih hcs]
      · exact hpair
  · rintro rfl
    exact halveQuotes?_doubleQuotes cs

/-! ## Runs of quotes -/

/-- Somewhere in a text there are `n` quotes in a row, with no further quote on either side. -/
def QuoteRun (cs : List Char) (n : Nat) : Prop :=
  ∃ before after, cs = before ++ (List.replicate n '\'' ++ after) ∧ before.getLast? ≠ some '\'' ∧
    after.head? ≠ some '\''

/-- Every run of quotes is of even length. -/
def PairsQuotes (cs : List Char) : Prop := ∀ n, QuoteRun cs n → 2 ∣ n

theorem getLast?_cons_ne {c d : Char} {cs : List Char} (h : (c :: cs).getLast? ≠ some d) :
    cs.getLast? ≠ some d := by
  cases cs with
  | nil => nofun
  | cons b cs => rwa [List.getLast?_cons_cons] at h

theorem pairsQuotes_nil : PairsQuotes [] := by
  rintro n ⟨before, after, hcs, -, -⟩
  obtain ⟨-, hrun⟩ := List.append_eq_nil_iff.mp hcs.symm
  cases n with
  | zero => exact Nat.dvd_zero 2
  | succ n => cases hrun

/-- A character that is no quote does not lengthen any run. -/
theorem pairsQuotes_cons_iff {c : Char} {cs : List Char} (hc : c ≠ '\'') :
    PairsQuotes (c :: cs) ↔ PairsQuotes cs := by
  constructor
  · rintro h n ⟨before, after, rfl, hbefore, hafter⟩
    refine h n ⟨c :: before, after, rfl, ?_, hafter⟩
    cases before with
    | nil => simpa using hc
    | cons b before => rwa [List.getLast?_cons_cons]
  · rintro h n ⟨before, after, hcs, hbefore, hafter⟩
    cases before with
    | nil =>
      cases n with
      | zero => exact Nat.dvd_zero 2
      | succ n => exact absurd (List.cons.inj hcs).1 hc
    | cons b before =>
      exact h n ⟨before, after, (List.cons.inj hcs).2, getLast?_cons_ne hbefore, hafter⟩

/-- Two quotes more in front leave all runs even. -/
theorem pairsQuotes_pair_iff {cs : List Char} : PairsQuotes ('\'' :: '\'' :: cs) ↔ PairsQuotes cs := by
  constructor
  · rintro h n ⟨before, after, rfl, hbefore, hafter⟩
    cases before with
    | nil => exact (Nat.dvd_add_left (Nat.dvd_refl 2)).mp (h (n + 2) ⟨[], after, rfl, nofun, hafter⟩)
    | cons b before => exact h n ⟨_ :: _ :: b :: before, after, rfl, hbefore, hafter⟩
  · rintro h n ⟨before, after, hcs, hbefore, hafter⟩
    match before, n with
    | [], 0 =>
      rw [← show '\'' :: '\'' :: cs = after from hcs] at hafter
      exact absurd rfl hafter
    | [], 1 =>
      rw [← show '\'' :: cs = after from (List.cons.inj hcs).2] at hafter
      exact absurd rfl hafter
    | [], n + 2 =>
      exact Nat.dvd_add (h n ⟨[], after, (List.cons.inj (List.cons.inj hcs).2).2, nofun, hafter⟩)
        (Nat.dvd_refl 2)
    | [b], n =>
      rw [← (List.cons.inj hcs).1] at hbefore
      exact absurd rfl hbefore
    | b :: d :: before, n =>
      exact h n ⟨before, after, (List.cons.inj (List.cons.inj hcs).2).2,
        getLast?_cons_ne (getLast?_cons_ne hbefore), hafter⟩

/-- A quote that stands alone is a run of odd length. -/
theorem not_pairsQuotes_alone {cs : List Char} (h : cs.head? ≠ some '\'') : ¬ PairsQuotes ('\'' :: cs) := by
  intro hpairs
  exact absurd (hpairs 1 ⟨[], cs, rfl, nofun, h⟩) (by decide)

theorem exists_map_eq_some_iff {α β : Type} {f : α → β} {o : Option α} :
    (∃ b, o.map f = some b) ↔ ∃ a, o = some a := by
  rw [← Option.isSome_iff_exists, Option.isSome_map, Option.isSome_iff_exists]

/-- **Quotes can be halved** exactly if all runs of them are of even length. -/
theorem exists_halveQuotes?_iff {ds : List Char} : (∃ cs, halveQuotes? ds = some cs) ↔ PairsQuotes ds := by
  induction ds using halveQuotes?.induct with
  | case1 => exact iff_of_true ⟨[], rfl⟩ pairsQuotes_nil
  | case2 ds ih =>
    rw [pairsQuotes_pair_iff, ← ih, halveQuotes?]
    exact exists_map_eq_some_iff
  | case3 ds halone =>
    have hhead : ds.head? ≠ some '\'' := by
      intro hhead
      obtain ⟨rest, rfl⟩ := List.head?_eq_some_iff.mp hhead
      exact halone rest rfl rfl
    refine iff_of_false ?_ (not_pairsQuotes_alone hhead)
    rw [halveQuotes?, if_pos rfl]
    · simp
    · exact halone
  | case4 d ds hpair hd ih =>
    rw [pairsQuotes_cons_iff hd, ← ih, halveQuotes?, if_neg hd]
    · exact exists_map_eq_some_iff
    · exact hpair

/-! ## Literals -/

/-- A text has the shape of a literal: it stands between two quotes, and inside all runs of quotes are of even
length. -/
def IsTextLiteral (l : String) : Prop := ∃ body, l.toList = '\'' :: (body ++ ['\'']) ∧ PairsQuotes body

theorem unquote?_eq_some_iff {s l : String} : unquote? l = some s ↔ l = quote s := by
  constructor
  · intro h
    obtain ⟨cs, hcs, rfl⟩ := Option.map_eq_some_iff.mp h
    obtain ⟨body, hbody, hhalf⟩ := Option.bind_eq_some_iff.mp hcs
    rw [quote, String.toList_ofList, ← halveQuotes?_eq_some_iff.mp hhalf,
      ← betweenQuotes?_eq_some_iff.mp hbody, String.ofList_toList]
  · rintro rfl
    exact unquote?_quote s

theorem exists_unquote?_iff {l : String} : (∃ s, unquote? l = some s) ↔ IsTextLiteral l := by
  constructor
  · rintro ⟨s, h⟩
    obtain ⟨cs, hcs, rfl⟩ := Option.map_eq_some_iff.mp h
    obtain ⟨body, hbody, hhalf⟩ := Option.bind_eq_some_iff.mp hcs
    exact ⟨body, betweenQuotes?_eq_some_iff.mp hbody, exists_halveQuotes?_iff.mp ⟨cs, hhalf⟩⟩
  · rintro ⟨body, hbody, hpairs⟩
    obtain ⟨cs, hhalf⟩ := exists_halveQuotes?_iff.mpr hpairs
    rw [unquote?, betweenQuotes?_eq_some_iff.mpr hbody, Option.bind_some, hhalf]
    exact ⟨_, rfl⟩

/-- **Reading a literal undoes writing it, and the other way round**: a text is read from a literal exactly if
it is written as that literal. So the literal of a text holds that text and no other, and what holds none is
what does not have the shape of a literal: what lacks a quote at either end, goes on after it, or has a run of
quotes of odd length inside. -/
theorem unquote?_inverts_quote :
    (∀ s l, unquote? l = some s ↔ l = quote s) ∧ ∀ l, unquote? l = none ↔ ¬ IsTextLiteral l := by
  refine ⟨fun s l => unquote?_eq_some_iff, fun l => ?_⟩
  rw [← exists_unquote?_iff, ← Option.isSome_iff_exists, Option.not_isSome_iff_eq_none]

example : ["'", "'''", "'O'Brien'", "'open", "'USA' "].map unquote? = List.replicate 5 none := by decide

end Targeting
