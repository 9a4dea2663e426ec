import Targeting.Identifier
import Targeting.Value.Literal

/-!
# Tokens of SQL

How a warehouse cuts SQL into tokens. Names with dots in between, numbers and numbered places are runs
of characters. A text stands between single quotes and a delimited name between double ones; either ends
at the first quote that is not followed by another one, and a doubled quote stands for one. Comments run
to the end of the line after two dashes, or from `/*` to `*/`.

* `Token`, `Lexer`, `tokens`: the tokens of a text, one character after the other;
* `Lexes`, `Closed`: the tokens of a part of a text, whatever follows that does not belong to them;
* `lexes_word`, `lexes_number`, **`lexes_quote`**: names, numbers and text literals.
-/

namespace Targeting

/-- A token of SQL; texts between quotes are kept with doubled quotes undone. -/
inductive Token
  | word (s : String)
  | number (s : String)
  | place (s : String)
  | literal (s : String)
  | delimited (s : String)
  | symbol (c : Char)
  | unclosed
  deriving DecidableEq

/-- The characters of names, numbers and numbered places. -/
def isRunChar (c : Char) : Bool := isNameChar c || c = '.' || c = '$'

namespace Token

/-- The token of a run, which its first character decides. -/
def ofRun (cs : List Char) : Token :=
  match cs.head? with
  | some c =>
    if c.isDigit then number (String.ofList cs)
    else if c = '$' then place (String.ofList cs)
    else word (String.ofList cs)
  | none => word ""

/-- The token of what stands between quotes. -/
def ofQuoted (q : Char) (cs : List Char) : Token :=
  if q = '\'' then literal (String.ofList cs) else delimited (String.ofList cs)

end Token

/-! ## The lexer -/

/-- Where a lexer stands: between two tokens, or in one of which it has seen the characters `cs`, the
last of them first. -/
inductive Lexer
  | between
  | run (cs : List Char)
  | quoted (q : Char) (cs : List Char)
  | quoteSeen (q : Char) (cs : List Char)
  | dash
  | slash
  | lineComment
  | blockComment
  | blockStar

namespace Lexer

/-- The state after a character that continues no token, with the token that it is by itself. -/
def start (c : Char) : List Token × Lexer :=
  if isRunChar c then ([], run [c])
  else if c = ' ' || c = '\n' || c = '\r' || c = '\t' then ([], between)
  else if c = '\'' || c = '"' then ([], quoted c [])
  else if c = '-' then ([], dash)
  else if c = '/' then ([], slash)
  else if c = '?' then ([.place "?"], between)
  else ([.symbol c], between)

/-- The state after a character that continues the token. -/
def next? : Lexer → Char → Option Lexer
  | between, _ => none
  | run cs, c => if isRunChar c then some (run (c :: cs)) else none
  | quoted q cs, c => some (if c = q then quoteSeen q cs else quoted q (c :: cs))
  | quoteSeen q cs, c => if c = q then some (quoted q (c :: cs)) else none
  | dash, c => if c = '-' then some lineComment else none
  | slash, c => if c = '*' then some blockComment else none
  | lineComment, c => some (if c = '\n' then between else lineComment)
  | blockComment, c => some (if c = '*' then blockStar else blockComment)
  | blockStar, c =>
    some (if c = '/' then between else if c = '*' then blockStar else blockComment)

/-- The token that nothing continues. -/
def ended : Lexer → List Token
  | between | lineComment => []
  | run cs => [.ofRun cs.reverse]
  | quoteSeen q cs => [.ofQuoted q cs.reverse]
  | dash => [.symbol '-']
  | slash => [.symbol '/']
  | quoted _ _ | blockComment | blockStar => [.unclosed]

/-- The tokens of characters from a state on. -/
def lex (l : Lexer) : List Char → List Token
  | [] => l.ended
  | c :: cs =>
    match l.next? c with
    | some m => lex m cs
    | none => l.ended ++ ((start c).1 ++ lex (start c).2 cs)

/-- A token ends where nothing continues it. -/
theorem lex_ended (l : Lexer) {rest : List Char} (h : ∀ c ∈ rest.head?, l.next? c = none) :
    l.lex rest = l.ended ++ between.lex rest := by
  cases rest with
  | nil => exact (List.append_nil _).symm
  | cons c cs =>
    have hc : l.next? c = none := h c rfl
    rw [lex, hc]
    rfl

theorem lex_next {l m : Lexer} {c : Char} (h : l.next? c = some m) (cs : List Char) :
    l.lex (c :: cs) = m.lex cs := by
  simp only [lex, h]

theorem lex_start (c : Char) (cs : List Char) :
    between.lex (c :: cs) = (start c).1 ++ (start c).2.lex cs := rfl

end Lexer

/-- The tokens of a text. -/
def tokens (s : String) : List Token := Lexer.between.lex s.toList

/-! ## Parts of a text -/

/-- Characters that set off what stands before them; there may be none left. -/
def Apart (cs : List Char) : Prop := ∀ c ∈ cs.head?, c = ' ' ∨ c = ')' ∨ c = ','

theorem Apart.nil : Apart [] := fun _ hc => by cases hc

theorem apart_cons_iff {c : Char} {cs : List Char} :
    Apart (c :: cs) ↔ c = ' ' ∨ c = ')' ∨ c = ',' := by
  simp only [Apart, List.head?_cons, Option.mem_some_iff, forall_eq']

instance : DecidablePred Apart
  | [] => isTrue Apart.nil
  | _ :: _ => decidable_of_iff _ apart_cons_iff.symm

theorem Apart.append {cs ds : List Char} (h : Apart cs) (h' : Apart ds) : Apart (cs ++ ds) := by
  cases cs with
  | nil => exact h'
  | cons c cs => exact h

/-- A text has these tokens, whatever follows that is set apart. -/
def Lexes (s : String) (ts : List Token) : Prop :=
  ∀ rest, Apart rest → Lexer.between.lex (s.toList ++ rest) = ts ++ Lexer.between.lex rest

/-- A text has these tokens, whatever follows. -/
def Closed (s : String) (ts : List Token) : Prop :=
  ∀ rest, Lexer.between.lex (s.toList ++ rest) = ts ++ Lexer.between.lex rest

theorem Lexes.tokens {s : String} {ts : List Token} (h : Lexes s ts) : tokens s = ts := by
  have h' := h [] Apart.nil
  rwa [List.append_nil, Lexer.lex, Lexer.ended, List.append_nil] at h'

theorem Lexes.empty : Lexes "" [] := fun _ _ => rfl

theorem Closed.lexes {s : String} {ts : List Token} (h : Closed s ts) : Lexes s ts :=
  fun rest _ => h rest

/-- **What is closed may stand before anything.** -/
theorem Closed.append_lexes {s t : String} {ts us : List Token} (h : Closed s ts)
    (h' : Lexes t us) : Lexes (s ++ t) (ts ++ us) := by
  intro rest hrest
  rw [String.toList_append, List.append_assoc, h, h' rest hrest, List.append_assoc]

/-- **What is not closed may stand before what is set apart.** -/
theorem Lexes.append {s t : String} {ts us : List Token} (h : Lexes s ts) (h' : Lexes t us)
    (ht : Apart t.toList) : Lexes (s ++ t) (ts ++ us) := by
  intro rest hrest
  rw [String.toList_append, List.append_assoc, h _ (ht.append hrest), h' rest hrest,
    List.append_assoc]

theorem Lexes.append_closed {s t : String} {ts us : List Token} (h : Lexes s ts) (h' : Closed t us)
    (ht : Apart t.toList) (hne : t.toList ≠ []) : Closed (s ++ t) (ts ++ us) := by
  intro rest
  have hapart : Apart (t.toList ++ rest) := by
    cases hcs : t.toList with
    | nil => exact absurd hcs hne
    | cons c cs => rwa [hcs] at ht
  rw [String.toList_append, List.append_assoc, h _ hapart, h', List.append_assoc]

/-! ## Runs -/

theorem isRunChar_of_apart {rest : List Char} (h : Apart rest) :
    ∀ c ∈ rest.head?, isRunChar c = false := by
  intro c hc
  rcases h c hc with rfl | rfl | rfl <;> decide

/-- The rest of a run is read up to what is set apart. -/
theorem lex_run (seen : List Char) {cs rest : List Char} (hcs : ∀ c ∈ cs, isRunChar c = true)
    (hrest : Apart rest) : (Lexer.run seen).lex (cs ++ rest) =
      .ofRun (seen.reverse ++ cs) :: Lexer.between.lex rest := by
  induction cs generalizing seen with
  | nil =>
    have hstop : ∀ c ∈ rest.head?, (Lexer.run seen).next? c = none := fun c hc => by
      rw [Lexer.next?, isRunChar_of_apart hrest c hc]
      rfl
    rw [List.nil_append, Lexer.lex_ended _ hstop, List.append_nil]
    rfl
  | cons c cs ih =>
    have hc : (Lexer.run seen).next? c = some (.run (c :: seen)) := by
      rw [Lexer.next?, if_pos (hcs c List.mem_cons_self)]
    rw [List.cons_append, Lexer.lex_next hc,
      ih (c :: seen) fun d hd => hcs d (List.mem_cons_of_mem _ hd), List.reverse_cons,
      List.append_assoc, List.singleton_append]

/-- **A run of characters is one token.** -/
theorem lexes_run {c : Char} {cs : List Char} (h : ∀ d ∈ c :: cs, isRunChar d = true) :
    Lexes (String.ofList (c :: cs)) [.ofRun (c :: cs)] := by
  intro rest hrest
  obtain ⟨hc, hcs⟩ := List.forall_mem_cons.mp h
  have hstart : Lexer.start c = ([], .run [c]) := by rw [Lexer.start, if_pos hc]
  rw [String.toList_ofList, List.cons_append, Lexer.lex_start, hstart]
  exact lex_run [c] hcs hrest

theorem isNameChar_of_isNameStart {c : Char} (h : isNameStart c = true) : isNameChar c = true := by
  simp only [isNameStart, isNameChar, Char.isAlphanum, Bool.or_eq_true] at h ⊢
  exact h.imp_left Or.inl

theorem isDigit_of_isAlpha {c : Char} (h : c.isAlpha = true) : c.isDigit = false := by
  have hletter : 'A'.val ≤ c.val ∨ 'a'.val ≤ c.val := by
    rcases Bool.or_eq_true_iff.mp h with h | h
    · exact Or.inl (of_decide_eq_true h).1
    · exact Or.inr (of_decide_eq_true (Bool.and_eq_true_iff.mp h).1)
  have hbound : 65 ≤ c.toNat := by
    rcases hletter with h | h
    · exact UInt32.le_iff_toNat_le.mp h
    · exact Nat.le_trans (by decide) (UInt32.le_iff_toNat_le.mp h)
  refine Bool.eq_false_iff.mpr fun hdigit => ?_
  have hnine : c.toNat ≤ 57 := (Char.isDigit_iff_toNat.mp hdigit).2
  omega

theorem isDigit_of_isNameStart {c : Char} (h : isNameStart c = true) : c.isDigit = false := by
  rcases Bool.or_eq_true_iff.mp h with h | h
  · exact isDigit_of_isAlpha h
  · rw [of_decide_eq_true h]
    decide

theorem isIdentifierChars_chars {cs : List Char} (h : isIdentifierChars cs = true) :
    ∀ c ∈ cs, isNameChar c = true := by
  cases cs with
  | nil => cases h
  | cons c cs =>
    obtain ⟨hc, hcs⟩ := Bool.and_eq_true_iff.mp h
    exact List.forall_mem_cons.mpr ⟨isNameChar_of_isNameStart hc, List.all_eq_true.mp hcs⟩

/-- Between the parts of a name stand dots only. -/
theorem isNameChar_or_dot_of_dotParts {cs : List Char}
    (h : ∀ part ∈ dotParts cs, ∀ c ∈ part, isNameChar c = true) :
    ∀ c ∈ cs, isNameChar c = true ∨ c = '.' := by
  fun_induction dotParts cs with
  | case1 => simp
  | case2 c cs hnil ih => cases cs <;> grind [dotParts]
  | case3 cs part parts hparts ih =>
    refine List.forall_mem_cons.mpr ⟨Or.inr rfl, ih fun p hp => h p ?_⟩
    exact List.mem_cons_of_mem _ (hparts ▸ hp)
  | case4 c cs part parts hparts hdot ih =>
    obtain ⟨hfirst, hmore⟩ := List.forall_mem_cons.mp h
    obtain ⟨hc, hpart⟩ := List.forall_mem_cons.mp hfirst
    refine List.forall_mem_cons.mpr ⟨Or.inl hc, ih fun p hp => ?_⟩
    rw [hparts] at hp
    rcases List.mem_cons.mp hp with rfl | hp
    · exact hpart
    · exact hmore p hp

/-- The characters of names with dots in between. -/
theorem isQualified_chars {s : String} (h : isQualified s = true) :
    ∀ c ∈ s.toList, isNameChar c = true ∨ c = '.' :=
  isNameChar_or_dot_of_dotParts fun part hpart =>
    isIdentifierChars_chars (List.all_eq_true.mp h part hpart)

theorem isRunChar_of_isNameChar {c : Char} (h : isNameChar c = true) : isRunChar c = true := by
  rw [isRunChar, h]
  rfl

theorem isNameStart_of_dotParts {cs : List Char} (h : (dotParts cs).all isIdentifierChars = true) :
    ∃ c ds, cs = c :: ds ∧ isNameStart c = true := by
  cases cs with
  | nil => cases h
  | cons c cs =>
    refine ⟨c, cs, rfl, ?_⟩
    rw [dotParts] at h
    split at h
    · simpa [isIdentifierChars] using h
    · split at h
      · cases h
      · simp only [List.all_cons, isIdentifierChars, Bool.and_eq_true] at h
        exact h.1.1

/-- **Names with dots in between are one word.** -/
theorem lexes_word {s : String} (h : isQualified s = true) : Lexes s [.word s] := by
  obtain ⟨c, cs, hs, hc⟩ := isNameStart_of_dotParts h
  have hchars : ∀ d ∈ c :: cs, isRunChar d = true := by
    rw [← hs]
    intro d hd
    rcases isQualified_chars h d hd with hd | rfl
    · exact isRunChar_of_isNameChar hd
    · decide
  have hrun : Token.ofRun (c :: cs) = .word s := by
    have hdigit : c.isDigit = false := isDigit_of_isNameStart hc
    have hdollar : c ≠ '$' := by rintro rfl; cases hc
    rw [Token.ofRun, List.head?_cons, ← hs, String.ofList_toList]
    simp only [hdigit, if_neg hdollar, Bool.false_eq_true, if_false]
  rw [← hrun]
  conv => arg 1; rw [← String.ofList_toList (s := s), hs]
  exact lexes_run hchars

/-- A numeral: digits and dots, of which a digit is the first. -/
def IsNumeral (cs : List Char) : Prop :=
  ∃ c ds, cs = c :: ds ∧ c.isDigit = true ∧ ∀ d ∈ ds, d.isDigit = true ∨ d = '.'

theorem isRunChar_of_isDigit {c : Char} (h : c.isDigit = true) : isRunChar c = true := by
  simp only [isRunChar, isNameChar, Char.isAlphanum, h, Bool.or_true, Bool.true_or]

theorem lexes_number {cs : List Char} (h : IsNumeral cs) :
    Lexes (String.ofList cs) [.number (String.ofList cs)] := by
  obtain ⟨c, ds, rfl, hc, hds⟩ := h
  have hrun : Token.ofRun (c :: ds) = .number (String.ofList (c :: ds)) := by
    rw [Token.ofRun, List.head?_cons]
    simp only [hc, if_true]
  rw [← hrun]
  refine lexes_run (List.forall_mem_cons.mpr ⟨isRunChar_of_isDigit hc, fun d hd => ?_⟩)
  rcases hds d hd with hd | rfl
  · exact isRunChar_of_isDigit hd
  · decide

/-! ## Text literals -/

/-- The rest of a text literal is read up to its closing quote. -/
theorem lex_doubleQuotes (seen cs : List Char) {rest : List Char} (hrest : Apart rest) :
    (Lexer.quoted '\'' seen).lex (doubleQuotes cs ++ '\'' :: rest) =
      .literal (String.ofList (seen.reverse ++ cs)) :: Lexer.between.lex rest := by
  induction cs generalizing seen with
  | nil =>
    -- What follows is no quote, so the closing quote is not the first of a pair.
    have hstop : ∀ c ∈ rest.head?, (Lexer.quoteSeen '\'' seen).next? c = none := fun c hc => by
      rcases hrest c hc with rfl | rfl | rfl <;> rfl
    rw [doubleQuotes, List.nil_append, Lexer.lex_next rfl, if_pos rfl, Lexer.lex_ended _ hstop,
      List.append_nil]
    rfl
  | cons c cs ih =>
    rw [doubleQuotes]
    split
    · next hc =>
      subst hc
      rw [List.cons_append, List.cons_append, Lexer.lex_next rfl, if_pos rfl, Lexer.lex_next rfl, ih,
        List.reverse_cons, List.append_assoc, List.singleton_append]
    · next hc =>
      rw [List.cons_append, Lexer.lex_next rfl, if_neg hc, ih, List.reverse_cons, List.append_assoc,
        List.singleton_append]

/-- **A text between quotes is one literal**, whatever is in it. -/
theorem lexes_quote (s : String) : Lexes (quote s) [.literal s] := by
  intro rest hrest
  have h := lex_doubleQuotes [] s.toList hrest
  rw [List.reverse_nil, List.nil_append, String.ofList_toList] at h
  rw [quote, String.toList_ofList, List.cons_append, List.append_assoc, List.singleton_append,
    Lexer.lex_start]
  exact h

end Targeting
