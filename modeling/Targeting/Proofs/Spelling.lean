import Targeting.Proofs.Rendering
import Targeting.Proofs.Token

/-!
# The tokens of operands

Wherever an operand stands in SQL it is one place, one text literal, one word or one number with an
optional sign. A text literal reads back as the very text, whatever that contains.

* `IsNumeral`: what doubles and integers look like, `Style.isNumeral_layOut`;
* `Value.Spelled`: the tokens of a scalar, **`Value.lexes_literal`**;
* `IsOperand`, **`Sql.lexes_mark`**: the tokens of an operand in either value mode.
-/

namespace Targeting

/-! ## Numerals -/

theorem isNumeral_of_digits {cs : List Char} (hne : cs ≠ []) (h : ∀ c ∈ cs, c.isDigit = true) :
    IsNumeral cs := by
  obtain ⟨c, ds, rfl⟩ := List.exists_cons_of_ne_nil hne
  obtain ⟨hc, hds⟩ := List.forall_mem_cons.mp h
  exact ⟨c, ds, rfl, hc, fun d hd => Or.inl (hds d hd)⟩

theorem isDigit_of_mem_toDigits {n : Nat} {c : Char} (h : c ∈ Nat.toDigits 10 n) :
    c.isDigit = true :=
  Nat.isDigit_of_mem_toDigits (by decide) (by decide) h

theorem isNumeral_toString (n : Nat) : IsNumeral (toString n).toList := by
  rw [show (toString n).toList = Nat.toDigits 10 n from Nat.toList_repr]
  exact isNumeral_of_digits Nat.toDigits_ne_nil fun c hc => isDigit_of_mem_toDigits hc

theorem Scientific.isDigit_trimZeros {ds : List Char} (h : ∀ c ∈ ds, c.isDigit = true) :
    ∀ c ∈ trimZeros ds, c.isDigit = true := by
  intro c hc
  rw [trimZeros, List.mem_reverse] at hc
  exact h c (List.mem_reverse.mp ((List.dropWhile_sublist _).mem hc))

/-- The shortest digits of a rank are digits. -/
theorem Scientific.isDigit_ofRank (tie : TieRule) (r : Nat) :
    ∀ c ∈ (ofRank tie r).digits, c.isDigit = true := by
  rw [ofRank]
  cases h : (List.range 17).findSome? fun i => (candidate tie r (i + 1)).map (ofGrid r (i + 1)) with
  | none => exact List.forall_mem_singleton.mpr (by decide)
  | some x =>
    obtain ⟨i, _, hi⟩ := List.exists_of_findSome?_eq_some h
    obtain ⟨k, _, rfl⟩ := Option.map_eq_some_iff.mp hi
    exact isDigit_trimZeros fun c hc => isDigit_of_mem_toDigits hc

theorem IsNumeral.fraction {cs ds : List Char} (h : IsNumeral cs) (hds : ∀ c ∈ ds, c.isDigit = true) :
    IsNumeral (cs ++ '.' :: ds) := by
  obtain ⟨c, cs, rfl, hc, hcs⟩ := h
  refine ⟨c, cs ++ '.' :: ds, rfl, hc, fun d hd => ?_⟩
  rcases List.mem_append.mp hd with hd | hd
  · exact hcs d hd
  · rcases List.mem_cons.mp hd with rfl | hd
    · exact Or.inr rfl
    · exact Or.inl (hds d hd)

namespace Style

theorem isDigit_digitsOf (style : Style) (x : Binary64.Finite) :
    ∀ c ∈ (style.digitsOf x).digits, c.isDigit = true := by
  rw [digitsOf]
  split
  · exact List.forall_mem_singleton.mpr (by decide)
  · exact Scientific.isDigit_ofRank _ _

theorem isDigit_zeros (n : Nat) : ∀ c ∈ zeros n, c.isDigit = true := by
  intro c hc
  rw [List.eq_of_mem_replicate hc]
  decide

/-- **Digits written out in full** are a numeral. -/
theorem isNumeral_layOut {x : Scientific} (h : ∀ c ∈ x.digits, c.isDigit = true) :
    IsNumeral (plain.layOut x) := by
  have hplain : plain.keepsFraction = false := rfl
  simp only [layOut, hplain, Bool.false_eq_true, if_false, List.append_nil]
  split
  · refine ⟨'0', _, rfl, by decide, fun d hd => ?_⟩
    rcases List.mem_cons.mp hd with rfl | hd
    · exact Or.inr rfl
    · rcases List.mem_append.mp hd with hd | hd
      · exact Or.inl (isDigit_zeros _ d hd)
      · exact Or.inl (h d hd)
  · split
    · next hlength =>
      refine isNumeral_of_digits (fun hnil => ?_) fun c hc => ?_
      · have hzero := congrArg List.length hnil
        simp only [zeros, List.length_append, List.length_replicate, List.length_nil] at hzero
        omega
      · rcases List.mem_append.mp hc with hc | hc
        · exact h c hc
        · exact isDigit_zeros _ c hc
    · next hlength =>
      refine (isNumeral_of_digits (fun hnil => ?_) fun c hc => h c (List.mem_of_mem_take hc)).fraction
        fun c hc => h c (List.mem_of_mem_drop hc)
      have hzero := congrArg List.length hnil
      simp only [List.length_take, List.length_nil] at hzero
      omega

theorem isNumeral_writeDigits (x : Binary64.Finite) :
    IsNumeral (plain.writeDigits (plain.digitsOf x)) :=
  isNumeral_layOut (isDigit_digitsOf plain x)

end Style

/-! ## Operands -/

/-- The tokens of a number, which may have a sign. -/
inductive IsNumber : List Token → Prop
  | positive (s : String) : IsNumber [.number s]
  | negative (s : String) : IsNumber [.symbol '-', .number s]

/-- A sign that stands before a numeral is a token of its own. -/
theorem lexes_negative {cs : List Char} (h : IsNumeral cs) :
    Lexes ("-" ++ String.ofList cs) [.symbol '-', .number (String.ofList cs)] := by
  intro rest hrest
  have hnumber := lexes_number h rest hrest
  obtain ⟨c, ds, rfl, hc, _⟩ := h
  have hstop : ∀ d ∈ (c :: (ds ++ rest)).head?, Lexer.dash.next? d = none := fun d hd => by
    have hdash : d ≠ '-' := by
      cases hd
      rintro rfl
      cases hc
    rw [Lexer.next?, if_neg hdash]
  have hsign : Lexer.between.lex (("-" ++ String.ofList (c :: ds)).toList ++ rest) =
      Lexer.dash.lex (c :: (ds ++ rest)) := by
    rw [String.toList_append, String.toList_ofList (l := c :: ds)]
    rfl
  rw [String.toList_ofList, List.cons_append] at hnumber
  rw [hsign, Lexer.lex_ended _ hstop, hnumber]
  rfl

theorem exists_lexes_number (negative : Bool) {cs : List Char} (h : IsNumeral cs) :
    ∃ ts, IsNumber ts ∧ Lexes (String.ofList ((if negative then ['-'] else []) ++ cs)) ts := by
  cases negative with
  | false => exact ⟨_, .positive _, lexes_number h⟩
  | true =>
    have hlexes := lexes_negative h
    rw [show "-" = String.ofList ['-'] from rfl, ← String.ofList_append] at hlexes
    exact ⟨_, .negative _, hlexes⟩

namespace Value

/-- The value is no list. -/
def isScalar : Value → Bool
  | list _ => false
  | _ => true

/-- The tokens of the literal of a scalar. -/
def Spelled : Value → List Token → Prop
  | null, ts => ts = [.word "NULL"]
  | bool b, ts => ts = [.word (if b then "TRUE" else "FALSE")]
  | int _, ts => IsNumber ts
  | float (.finite _), ts => IsNumber ts
  | float _, ts => ts = [.word "NULL"]
  | string s, ts => ts = [.literal s]
  | date d, ts => ts = [.literal d.text]
  | dateTime t, ts => ts = [.literal (dateTimeText t)]
  | json v, ts => ts = [.literal v.compact]
  | list _, _ => False

theorem lexes_toString (n : Int) : ∃ ts, IsNumber ts ∧ Lexes (toString n) ts := by
  cases n with
  | ofNat n =>
    have h := lexes_number (isNumeral_toString n)
    rw [String.ofList_toList] at h
    exact ⟨_, .positive _, h⟩
  | negSucc n =>
    have h := lexes_negative (isNumeral_toString (n + 1))
    rw [String.ofList_toList] at h
    exact ⟨_, .negative _, h⟩

/-- **The literal of a scalar** has the tokens of the scalar. -/
theorem lexes_literal {v : Value} (h : v.isScalar = true) :
    ∃ ts, v.Spelled ts ∧ Lexes v.literal ts := by
  have hnull : Lexes "NULL" [.word "NULL"] := lexes_word (by decide)
  cases v with
  | null => exact ⟨_, rfl, hnull⟩
  | bool b => cases b <;> exact ⟨_, rfl, lexes_word (by decide)⟩
  | int n => exact lexes_toString n.toInt
  | float x =>
    cases x with
    | nan => exact ⟨_, rfl, hnull⟩
    | infinite negative => exact ⟨_, rfl, hnull⟩
    | finite x => exact exists_lexes_number x.negative (Style.isNumeral_writeDigits x)
  | string s => exact ⟨_, rfl, lexes_quote s⟩
  | date d => exact ⟨_, rfl, lexes_quote _⟩
  | dateTime t => exact ⟨_, rfl, lexes_quote _⟩
  | json v => exact ⟨_, rfl, lexes_quote _⟩
  | list items => cases h

end Value

/-- The tokens that may stand for an operand. -/
inductive IsOperand : List Token → Prop
  | place (s : String) : IsOperand [.place s]
  | literal (s : String) : IsOperand [.literal s]
  | number {ts : List Token} (h : IsNumber ts) : IsOperand ts
  | keyword {s : String} (h : s ∈ ["NULL", "TRUE", "FALSE"]) : IsOperand [.word s]

theorem Value.Spelled.isOperand {v : Value} {ts : List Token} (h : v.Spelled ts) : IsOperand ts := by
  unfold Spelled at h
  split at h
  · exact h ▸ .keyword (by decide)
  · next b => exact h ▸ .keyword (by cases b <;> decide)
  · exact .number h
  · exact .number h
  · exact h ▸ .keyword (by decide)
  · exact h ▸ .literal _
  · exact h ▸ .literal _
  · exact h ▸ .literal _
  · exact h ▸ .literal _
  · exact h.elim

theorem Dialect.lexes_placeholder (d : Dialect) (i : Nat) :
    Lexes (d.placeholder i) [.place (d.placeholder i)] := by
  rw [placeholder]
  split
  · have htext : "$" ++ toString i = String.ofList ('$' :: Nat.toDigits 10 i) := by
      rw [← String.toList_inj, String.toList_append, show (toString i).toList = _ from Nat.toList_repr]
      exact String.toList_ofList.symm
    rw [htext]
    refine lexes_run (List.forall_mem_cons.mpr ⟨by decide, fun c hc => ?_⟩)
    exact isRunChar_of_isDigit (isDigit_of_mem_toDigits hc)
  · exact Closed.lexes fun _ => rfl

/-- **An operand is one of its tokens** in either value mode. -/
theorem Sql.lexes_mark (d : Dialect) (mode : ValueMode) (i : Nat) {v : Value} (h : v.isScalar = true) :
    ∃ ts, IsOperand ts ∧ Lexes (mark d mode i v) ts := by
  cases mode with
  | bound => exact ⟨_, .place _, d.lexes_placeholder i⟩
  | inline =>
    obtain ⟨ts, hspelled, hlexes⟩ := Value.lexes_literal h
    exact ⟨ts, hspelled.isOperand, hlexes⟩

end Targeting
