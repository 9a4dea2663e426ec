import Targeting.Proofs.Spelling

/-!
# Search conditions of SQL

The grammar by which a warehouse reads the condition of a query: terms joined by `OR`, each of which is
primaries joined by `AND`; a primary is a search condition between parentheses, a predicate, or one of
the two constants `1=1` and `1=0`. Both connectives associate to the left.

* `PredicateOf`: comparisons of a column, of all forms that occur, with operands of some kind;
  `IsPredicate`: the same with operands of SQL;
* `Formula`, `Formula.holds`: what is read, and its truth if that of the atoms is known;
* `Parses`, `Reads`: the grammar; `Grammatical`: a way of reading that obeys its rules;
* `Reader`, **`Parses.unique`**: a reader that takes one token after the other finds every reading, so
  no text has two.
-/

namespace Targeting

/-! ## Predicates -/

/-- The operators that compare a column with one operand. -/
def comparators : List (List Token) :=
  [[.symbol '='], [.symbol '!', .symbol '='], [.symbol '>'], [.symbol '<'], [.word "LIKE"],
    [.word "NOT", .word "LIKE"]]

/-- The tests of a column for null. -/
def nullTests : List (List Token) :=
  [[.word "IS", .word "NULL"], [.word "IS", .word "NOT", .word "NULL"]]

/-- The operators that look a column up in a list. -/
def memberships : List (List Token) := [[.word "IN"], [.word "NOT", .word "IN"]]

/-- Operands of some kind with commas in between. -/
inductive ListOf (O : List Token → Prop) : List Token → Prop
  | single {ts : List Token} (h : O ts) : ListOf O ts
  | cons {ts us : List Token} (h : O ts) (hs : ListOf O us) : ListOf O (ts ++ .symbol ',' :: us)

/-- A predicate: a column, an operator and operands of some kind. -/
inductive PredicateOf (O : List Token → Prop) : List Token → Prop
  | compare (column : String) {op ts : List Token} (hop : op ∈ comparators) (h : O ts) :
    PredicateOf O (.word column :: (op ++ ts))
  | null (column : String) {op : List Token} (hop : op ∈ nullTests) :
    PredicateOf O (.word column :: op)
  | member (column : String) {op ts : List Token} (hop : op ∈ memberships) (h : ListOf O ts) :
    PredicateOf O (.word column :: (op ++ .symbol '(' :: (ts ++ [.symbol ')'])))

section

variable {O Q : List Token → Prop} {ts : List Token}

theorem ListOf.mono (hO : ∀ ts, O ts → Q ts) (h : ListOf O ts) : ListOf Q ts := by
  induction h with
  | single h => exact .single (hO _ h)
  | cons h _ ih => exact .cons (hO _ h) ih

theorem PredicateOf.mono (hO : ∀ ts, O ts → Q ts) (h : PredicateOf O ts) : PredicateOf Q ts := by
  cases h with
  | compare column hop h => exact .compare column hop (hO _ h)
  | null column hop => exact .null column hop
  | member column hop h => exact .member column hop (h.mono hO)

end

/-- A predicate: a column, an operator and operands, or a list of them. -/
def IsPredicate : List Token → Prop := PredicateOf IsOperand

/-! ## Formulas -/

/-- What is read: atoms and constants under connectives. -/
inductive Formula
  | const (b : Bool)
  | atom (ts : List Token)
  | and (f g : Formula)
  | or (f g : Formula)

namespace Formula

/-- The atoms in order. -/
def atoms : Formula → List (List Token)
  | const _ => []
  | atom ts => [ts]
  | and f g | or f g => f.atoms ++ g.atoms

/-- The truth of a formula if that of its atom with number `k` is `v k`, the first of them with number
`i`. -/
def holds (v : Nat → Bool) (i : Nat) : Formula → Bool
  | const b => b
  | atom _ => v i
  | and f g => f.holds v i && g.holds v (i + f.atoms.length)
  | or f g => f.holds v i || g.holds v (i + f.atoms.length)

end Formula

/-- The texts of the two constants. -/
def constantTokens (b : Bool) : List Token :=
  [.number "1", .symbol '=', .number (if b then "1" else "0")]

/-! ## The grammar -/

/-- What the grammar derives, from what binds least to what binds most. -/
inductive Nonterminal
  | condition
  | term
  | primary

/-- Tokens that are derived from a nonterminal and read as a formula. -/
inductive Parses : Nonterminal → List Token → Formula → Prop
  | const (b : Bool) : Parses .primary (constantTokens b) (.const b)
  | predicate {ts : List Token} (h : IsPredicate ts) : Parses .primary ts (.atom ts)
  | parentheses {ts : List Token} {f : Formula} (h : Parses .condition ts f) :
    Parses .primary (.symbol '(' :: (ts ++ [.symbol ')'])) f
  | primary {ts : List Token} {f : Formula} (h : Parses .primary ts f) : Parses .term ts f
  | and {ts us : List Token} {f g : Formula} (h : Parses .term ts f) (h' : Parses .primary us g) :
    Parses .term (ts ++ .word "AND" :: us) (.and f g)
  | term {ts : List Token} {f : Formula} (h : Parses .term ts f) : Parses .condition ts f
  | or {ts us : List Token} {f g : Formula} (h : Parses .condition ts f) (h' : Parses .term us g) :
    Parses .condition (ts ++ .word "OR" :: us) (.or f g)

/-- A way of reading tokens obeys the rules of the grammar, with operands of some kind. -/
structure Grammatical (O : List Token → Prop) (P : Nonterminal → List Token → Formula → Prop) :
    Prop where
  predicate : ∀ {ts}, PredicateOf O ts → P .primary ts (.atom ts)
  const : ∀ b, P .primary (constantTokens b) (.const b)
  parentheses : ∀ {ts f}, P .condition ts f → P .primary (.symbol '(' :: (ts ++ [.symbol ')'])) f
  primary : ∀ {ts f}, P .primary ts f → P .term ts f
  and : ∀ {ts us f g}, P .term ts f → P .primary us g → P .term (ts ++ .word "AND" :: us) (.and f g)
  term : ∀ {ts f}, P .term ts f → P .condition ts f
  or : ∀ {ts us f g}, P .condition ts f → P .term us g →
    P .condition (ts ++ .word "OR" :: us) (.or f g)

theorem grammatical_parses : Grammatical IsOperand Parses where
  predicate h := .predicate h
  const := .const
  parentheses := .parentheses
  primary := .primary
  and := .and
  term := .term
  or := .or

/-- A text is read as a formula. -/
def Reads (s : String) (f : Formula) : Prop := Parses .condition (tokens s) f

/-! ## A reader -/

/-- What stands before a primary in its group: what the last `OR` ends, and after that what the last
`AND` ends. -/
structure Before where
  ors : Option Formula := none
  ands : Option Formula := none

namespace Before

/-- The term that ends with a primary. -/
def term (b : Before) (p : Formula) : Formula := b.ands.elim p fun f => .and f p

/-- The condition that ends with a primary. -/
def condition (b : Before) (p : Formula) : Formula := b.ors.elim (b.term p) fun f => .or f (b.term p)

end Before

/-- Where a reader stands in a group, with what stands before it there and in the groups around it:
before a primary, inside a predicate of which it has seen `ts`, the last token first, or after a
primary. -/
inductive Reader
  | expects (b : Before) (outer : List Before)
  | inside (ts : List Token) (depth : Nat) (b : Before) (outer : List Before)
  | after (p : Formula) (b : Before) (outer : List Before)

/-- The formula of the tokens between two connectives. -/
def Formula.ofTokens (ts : List Token) : Formula :=
  if ts = constantTokens true then .const true
  else if ts = constantTokens false then .const false
  else .atom ts

namespace Reader

/-- The state after the token that follows a primary. -/
def close (p : Formula) (b : Before) (outer : List Before) (t : Token) : Option Reader :=
  if t = .word "AND" then some (.expects ⟨b.ors, some (b.term p)⟩ outer)
  else if t = .word "OR" then some (.expects ⟨some (b.condition p), none⟩ outer)
  else if t = .symbol ')' then
    match outer with
    | [] => none
    | b' :: outer => some (.after (b.condition p) b' outer)
  else none

/-- The token follows a primary. -/
def closes (t : Token) : Bool := t = .word "AND" || t = .word "OR" || t = .symbol ')'

/-- The state after a token. -/
def step : Reader → Token → Option Reader
  | expects b outer, t =>
    if t = .symbol '(' then some (expects {} (b :: outer)) else some (inside [t] 0 b outer)
  | inside ts 0 b outer, t =>
    if closes t then close (.ofTokens ts.reverse) b outer t
    else some (inside (t :: ts) (if t = .symbol '(' then 1 else 0) b outer)
  | inside ts (n + 1) b outer, t =>
    some (inside (t :: ts)
      (if t = .symbol '(' then n + 2 else if t = .symbol ')' then n else n + 1) b outer)
  | after p b outer, t => close p b outer t

/-- The formula at the end. -/
def finish : Reader → Option Formula
  | inside ts 0 b [] => some (b.condition (.ofTokens ts.reverse))
  | after p b [] => some (b.condition p)
  | _ => none

/-- The formula of tokens from a state on. -/
def run (r : Reader) : List Token → Option Formula
  | [] => r.finish
  | t :: ts => (r.step t).bind (run · ts)

/-- The formula of a text. -/
def read (s : String) : Option Formula := (expects {} []).run (tokens s)

/-- Nothing follows, or a token that follows a primary. -/
def Ends (rest : List Token) : Prop := ∀ t ∈ rest.head?, closes t = true

/-- The token neither follows a primary nor opens a list. -/
def Quiet (t : Token) : Prop := closes t = false ∧ t ≠ .symbol '('

instance (t : Token) : Decidable (Quiet t) := inferInstanceAs (Decidable (_ ∧ _))

theorem Quiet.ne_close {t : Token} (h : Quiet t) : t ≠ .symbol ')' := by
  rintro rfl
  exact absurd h (by decide)

variable {b : Before} {outer : List Before} {ts us rest : List Token}

theorem run_cons {r m : Reader} {t : Token} (h : r.step t = some m) (ts : List Token) :
    r.run (t :: ts) = m.run ts := by
  rw [run, h]
  rfl

/-- A predicate ends where something follows it. -/
theorem run_inside (hrest : Ends rest) :
    (inside ts 0 b outer).run rest = (after (.ofTokens ts.reverse) b outer).run rest := by
  cases rest with
  | nil => cases outer <;> rfl
  | cons t rest => rw [run, run, step, if_pos (hrest t rfl), step]

/-- Quiet tokens belong to the predicate. -/
theorem run_quiet (h : ∀ t ∈ us, Quiet t) (depth : Nat) :
    (inside ts depth b outer).run (us ++ rest) =
      (inside (us.reverse ++ ts) depth b outer).run rest := by
  induction us generalizing ts with
  | nil => rfl
  | cons t us ih =>
    obtain ⟨ht, hus⟩ := List.forall_mem_cons.mp h
    have hstep : (inside ts depth b outer).step t = some (inside (t :: ts) depth b outer) := by
      cases depth with
      | zero => rw [step, ht.1, if_neg Bool.false_ne_true, if_neg ht.2]
      | succ n => rw [step, if_neg ht.2, if_neg ht.ne_close]
    rw [List.cons_append, run_cons hstep, ih hus, List.reverse_cons, List.append_assoc,
      List.singleton_append]

end Reader

open Reader

/-- Tokens none of which follows a primary or opens a list. -/
def IsQuiet (ts : List Token) : Prop := ∀ t ∈ ts, Quiet t

theorem IsOperand.quiet {ts : List Token} (h : IsOperand ts) : IsQuiet ts := by
  cases h with
  | place s => simp [IsQuiet, Quiet, closes]
  | literal s => simp [IsQuiet, Quiet, closes]
  | number h => cases h <;> simp [IsQuiet, Quiet, closes]
  | keyword h =>
    simp only [List.mem_cons, List.not_mem_nil, or_false] at h
    unfold IsQuiet
    rcases h with rfl | rfl | rfl <;> decide

theorem IsQuiet.list {ts us : List Token} (h : IsQuiet ts) (h' : IsQuiet us) :
    IsQuiet (ts ++ .symbol ',' :: us) :=
  List.forall_mem_append.mpr ⟨h, List.forall_mem_cons.mpr ⟨by decide, h'⟩⟩

theorem ListOf.quiet {ts : List Token} (h : ListOf IsQuiet ts) : IsQuiet ts := by
  induction h with
  | single h => exact h
  | cons h _ ih => exact h.list ih

theorem IsPredicate.quiet {ts : List Token} (h : IsPredicate ts) : PredicateOf IsQuiet ts :=
  PredicateOf.mono (fun _ => IsOperand.quiet) h

theorem Formula.ofTokens_word (s : String) (ts : List Token) :
    ofTokens (.word s :: ts) = .atom (.word s :: ts) := by
  rw [ofTokens, if_neg (by simp [constantTokens]), if_neg (by simp [constantTokens])]

namespace Reader

variable {b : Before} {outer : List Before} {ts us rest : List Token}

theorem run_word (column : String) (h : ∀ t ∈ ts, Quiet t) (hrest : Ends rest) :
    (expects b outer).run (.word column :: ts ++ rest) =
      (after (.atom (.word column :: ts)) b outer).run rest := by
  rw [List.cons_append, run_cons (m := inside [.word column] 0 b outer) rfl, run_quiet h,
    run_inside hrest, List.reverse_append, List.reverse_reverse, List.reverse_singleton,
    List.singleton_append, Formula.ofTokens_word]

theorem run_list (column : String) (hts : ∀ t ∈ ts, Quiet t) (hus : ∀ t ∈ us, Quiet t)
    (hrest : Ends rest) :
    let p := .word column :: (ts ++ .symbol '(' :: (us ++ [.symbol ')']))
    (expects b outer).run (p ++ rest) = (after (.atom p) b outer).run rest := by
  intro p
  have hp : p ++ rest =
      .word column :: (ts ++ .symbol '(' :: (us ++ .symbol ')' :: rest)) := by
    simp only [p, List.cons_append, List.append_assoc, List.nil_append]
  have hseen : (.symbol ')' :: (us.reverse ++ .symbol '(' :: (ts.reverse ++ [.word column]))).reverse =
      p := by
    simp [p]
  rw [hp, run_cons (m := inside [.word column] 0 b outer) rfl, run_quiet hts,
    run_cons (m := inside (.symbol '(' :: (ts.reverse ++ [.word column])) 1 b outer) rfl, run_quiet hus,
    run_cons rfl]
  change (inside _ 0 b outer).run rest = _
  rw [run_inside hrest, hseen, Formula.ofTokens_word]

theorem quiet_comparators : ∀ op ∈ comparators, ∀ t ∈ op, Quiet t := by decide

theorem quiet_nullTests : ∀ op ∈ nullTests, ∀ t ∈ op, Quiet t := by decide

theorem quiet_memberships : ∀ op ∈ memberships, ∀ t ∈ op, Quiet t := by decide

/-- **A predicate is read as one atom**, whatever its operands are. -/
theorem run_predicate (h : PredicateOf IsQuiet ts) (hrest : Ends rest) :
    (expects b outer).run (ts ++ rest) = (after (.atom ts) b outer).run rest := by
  cases h with
  | @compare column op ts hop h =>
    exact run_word column (List.forall_mem_append.mpr ⟨quiet_comparators op hop, h⟩) hrest
  | @null column op hop => exact run_word column (quiet_nullTests op hop) hrest
  | @member column op ts hop h => exact run_list column (quiet_memberships op hop) h.quiet hrest

theorem run_const (c : Bool) (hrest : Ends rest) :
    (expects b outer).run (constantTokens c ++ rest) = (after (.const c) b outer).run rest := by
  have hquiet : ∀ t ∈ (constantTokens c).tail, Quiet t := by cases c <;> decide
  have hseen : Formula.ofTokens (((constantTokens c).tail.reverse ++ [Token.number "1"]).reverse) =
      .const c := by cases c <;> rfl
  rw [constantTokens, List.cons_append, run_cons (m := inside [.number "1"] 0 b outer) rfl]
  exact (run_quiet hquiet 0).trans ((run_inside hrest).trans (by rw [hseen]))

/-- What a reader does with tokens that are read as a formula, whatever stands around them. -/
def Follows : Nonterminal → List Token → Formula → Prop
  | .primary, ts, f => ∀ b outer rest, Ends rest →
    (expects b outer).run (ts ++ rest) = (after f b outer).run rest
  | .term, ts, f => ∀ ors, ∃ ands p, Before.term ⟨ors, ands⟩ p = f ∧ ∀ outer rest, Ends rest →
    (expects ⟨ors, none⟩ outer).run (ts ++ rest) = (after p ⟨ors, ands⟩ outer).run rest
  | .condition, ts, f => ∃ b p, Before.condition b p = f ∧ ∀ outer rest, Ends rest →
    (expects {} outer).run (ts ++ rest) = (after p b outer).run rest

/-- **A reader obeys the grammar.** -/
theorem grammatical_follows : Grammatical IsQuiet Follows where
  predicate h := fun b outer rest hrest => run_predicate h hrest
  const c := fun b outer rest hrest => run_const c hrest
  parentheses := by
    rintro ts _ ⟨b', p, rfl, hrun⟩ b outer rest hrest
    -- The closing parenthesis takes the group outside up again where the opening one left it.
    rw [List.cons_append, List.append_assoc, run_cons (m := expects {} (b :: outer)) rfl,
      hrun _ _ (by intro t ht; cases ht; rfl), List.singleton_append, run_cons rfl]
  primary h := fun ors => ⟨none, _, rfl, fun outer rest hrest => h _ outer rest hrest⟩
  and := by
    intro ts us f g h h' ors
    obtain ⟨ands, p, rfl, hrun⟩ := h ors
    refine ⟨some (Before.term ⟨ors, ands⟩ p), g, rfl, fun outer rest hrest => ?_⟩
    rw [List.append_assoc, hrun _ _ (by intro t ht; cases ht; rfl), List.cons_append, run_cons rfl]
    exact h' _ outer rest hrest
  term h := by
    obtain ⟨ands, p, rfl, hrun⟩ := h none
    exact ⟨_, p, rfl, hrun⟩
  or := by
    -- The second term starts with no `AND` before it, so `h'` is used for what the `OR` ends.
    rintro ts us _ g ⟨b, p, rfl, hrun⟩ h'
    obtain ⟨ands, q, rfl, hrun'⟩ := h' (some (b.condition p))
    refine ⟨⟨some (b.condition p), ands⟩, q, rfl, fun outer rest hrest => ?_⟩
    rw [List.append_assoc, hrun _ _ (by intro t ht; cases ht; rfl), List.cons_append, run_cons rfl]
    exact hrun' outer rest hrest

/-- **A reader follows every derivation.** -/
theorem follows {l : Nonterminal} {f : Formula} (h : Parses l ts f) : Follows l ts f := by
  induction h with
  | const c => exact grammatical_follows.const c
  | predicate h => exact grammatical_follows.predicate h.quiet
  | parentheses _ ih => exact grammatical_follows.parentheses ih
  | primary _ ih => exact grammatical_follows.primary ih
  | and _ _ ih ih' => exact grammatical_follows.and ih ih'
  | term _ ih => exact grammatical_follows.term ih
  | or _ _ ih ih' => exact grammatical_follows.or ih ih'

/-- What is read as a condition is what a reader returns. -/
theorem Follows.run_eq {f : Formula} (h : Follows .condition ts f) :
    (expects {} []).run ts = some f := by
  obtain ⟨b, p, rfl, hrun⟩ := h
  have hread := hrun [] [] (by intro t ht; cases ht)
  rwa [List.append_nil] at hread

end Reader

/-- **What a text is read as is what a reader returns.** -/
theorem Reads.read_eq {s : String} {f : Formula} (h : Reads s f) : Reader.read s = some f :=
  (Reader.follows h).run_eq

/-- **No tokens have two readings.** -/
theorem Parses.unique {ts : List Token} {f g : Formula} (hf : Parses .condition ts f)
    (hg : Parses .condition ts g) : f = g := by
  exact Option.some.inj ((follows hf).run_eq.symm.trans (follows hg).run_eq)

end Targeting
