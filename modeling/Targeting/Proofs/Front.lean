import Targeting.Json.Printer
import Targeting.Json.Record

/-!
# The front of a JSON text

What is read at the front of a text, and how strings and integers are read back from what they are
written as.

* `Document.front`, `Document.front_eq`: the value at the front of a text, with its items and members;
* **`Document.takeString_flatMap`**, `Document.textOf?_map_toNat`: a string is read back;
* **`Json.Numeral.take_word`**: an integer is read back, if nothing goes on with it (`Json.Stops`).
-/

namespace Targeting

namespace Document

/-! ## The front of a text -/

/-- The value at the front of a text, and what follows it. -/
def front (cs : List Char) : Document × List Char := ((takeValue cs).1, (takeValue cs).2.1)

/-- The items at the front of a text, and what follows their closing bracket. -/
def frontItems (cs : List Char) : List Document × List Char := ((takeItems cs).1, (takeItems cs).2.1)

/-- The members at the front of a text, and what follows their closing brace. -/
def frontMembers (cs : List Char) : List (Option String × Document) × List Char :=
  ((takeMembers cs).1, (takeMembers cs).2.1)

theorem ofText_eq (s : String) :
    ofText s = { root := (front s.toList).1, ends := skipSpace (front s.toList).2 = [] } := rfl

theorem front_eq (cs : List Char) : front cs = match skipSpace cs with
    | '[' :: cs₁ => match skipSpace cs₁ with
      | ']' :: rest => (.array [], rest)
      | _ => (.array (frontItems cs₁).1, (frontItems cs₁).2)
    | '\x7b' :: cs₁ => match skipSpace cs₁ with
      | '\x7d' :: rest => (.object [], rest)
      | _ => (.object (frontMembers cs₁).1, (frontMembers cs₁).2)
    | '"' :: cs₁ => match takeString cs₁ with
      | some (ns, rest) => (match textOf? ns with | some s => .string s | none => .unreadable, rest)
      | none => (.broken, [])
    | cs₁ => takeLeaf cs₁ := by
  rw [front, takeValue]
  split
  · next h =>
    simp only [h]
    split <;> next h₁ => simp [h₁, frontItems]
  · next h =>
    simp only [h]
    split <;> next h₁ => simp [h₁, frontMembers]
  · next h =>
    simp only [h]
    split
    · next ns rest hs => cases htext : textOf? ns <;> simp only [hs, htext]
    · next hs => simp only [hs, Rest.none]
  · next harray hobject hstring =>
    split
    · next h => exact absurd h (harray _)
    · next h => exact absurd h (hobject _)
    · next h => exact absurd h (hstring _)
    · rfl

theorem frontItems_eq (cs : List Char) : frontItems cs = match skipSpace (front cs).2 with
    | ',' :: next => ((front cs).1 :: (frontItems next).1, (frontItems next).2)
    | ']' :: rest => ([(front cs).1], rest)
    | _ => ([(front cs).1, .broken], []) := by
  rw [frontItems, takeItems]
  split
  next d after h =>
  simp only [front, h]
  split <;> next h₁ => simp [h₁, frontItems, Rest.none]

theorem frontMembers_eq (cs : List Char) : frontMembers cs = match skipSpace cs with
    | '"' :: cs₁ => match takeString cs₁ with
      | some (ns, afterKey) => match skipSpace afterKey with
        | ':' :: cs₂ => match skipSpace (front cs₂).2 with
          | ',' :: next => ((textOf? ns, (front cs₂).1) :: (frontMembers next).1, (frontMembers next).2)
          | '\x7d' :: rest => ([(textOf? ns, (front cs₂).1)], rest)
          | _ => ([(textOf? ns, (front cs₂).1), (none, .broken)], [])
        | _ => ([(textOf? ns, .broken)], [])
      | none => ([(none, .broken)], [])
    | _ => ([(none, .broken)], []) := by
  rw [frontMembers, takeMembers]
  split
  · next h =>
    simp only [h]
    split
    · next hs =>
      simp only [hs]
      split
      · next hc =>
        simp only [hc]
        split <;> next h₁ => simp [front, h₁, frontMembers, Rest.none]
      · next hno =>
        split
        · next hc => exact absurd hc (hno _)
        · rfl
    · next hs => simp only [hs, Rest.none]
  · next hno =>
    split
    · next h => exact absurd h (hno _)
    · rfl

/-! ## Strings -/

/-- A control character is written with two hexadecimal digits. -/
theorem escapeByNumber_eq : ∀ n < 32, Json.escapeByNumber (Char.ofNat n) =
    ['\\', 'u', '0', '0', Nat.digitChar (n / 16), Nat.digitChar (n % 16)] := by decide

theorem hex?_digitChar : ∀ n < 32,
    hex? '0' '0' (Nat.digitChar (n / 16)) (Nat.digitChar (n % 16)) = some n := by decide

theorem takeString_short {e c : Char} (h : shortEscape? e = some c) (cs : List Char) :
    takeString ('\\' :: e :: cs) = (takeString cs).map fun (ns, rest) => (c.toNat :: ns, rest) := by
  have hu : e ≠ 'u' := by
    rintro rfl
    cases h
  rw [takeString, h]
  · cases takeString cs <;> rfl
  · exact fun _ _ _ _ _ he => absurd he hu

/-- A character is written in one of three ways. -/
theorem escapeChar_cases (c : Char) :
    (∃ e, Json.escapeChar c = ['\\', e] ∧ shortEscape? e = some c) ∨
    (c.toNat < 32 ∧ Json.escapeChar c = Json.escapeByNumber c) ∨
    (32 ≤ c.toNat ∧ c ≠ '"' ∧ c ≠ '\\' ∧ Json.escapeChar c = [c]) := by
  unfold Json.escapeChar
  iterate 7
    split
    · next h =>
      subst h
      exact Or.inl ⟨_, rfl, rfl⟩
  split
  · next h => exact Or.inr (Or.inl ⟨h, rfl⟩)
  · next hquote hslash _ _ _ _ _ h => exact Or.inr (Or.inr ⟨Nat.le_of_not_lt h, hquote, hslash, rfl⟩)

/-- A character is read back from what it is written as. -/
theorem takeString_escapeChar (c : Char) (cs : List Char) :
    takeString (Json.escapeChar c ++ cs) = (takeString cs).map fun (ns, rest) => (c.toNat :: ns, rest) := by
  rcases escapeChar_cases c with ⟨e, heq, he⟩ | ⟨hcontrol, heq⟩ | ⟨hplain, hquote, hslash, heq⟩
  · rw [heq]
    exact takeString_short he cs
  · rw [heq, ← Char.ofNat_toNat c, escapeByNumber_eq _ hcontrol]
    simp only [List.cons_append, List.nil_append]
    rw [takeString, hex?_digitChar _ hcontrol, Char.ofNat_toNat]
    cases takeString cs <;> rfl
  · rw [heq, List.singleton_append, takeString, if_neg]
    · simp [hslash, hplain]
    · exact hquote
    · exact fun _ _ _ _ _ h => absurd h hslash
    · exact fun _ _ h => absurd h hslash

/-- The characters of a string are read back up to the closing quote. -/
theorem takeString_flatMap (cs rest : List Char) :
    takeString (cs.flatMap Json.escapeChar ++ '"' :: rest) = some (cs.map Char.toNat, rest) := by
  induction cs with
  | nil => rfl
  | cons c cs ih => rw [List.flatMap_cons, List.append_assoc, takeString_escapeChar, ih]; rfl

/-- No character is half of a surrogate pair. -/
theorem joinSurrogates_map_toNat (cs : List Char) : joinSurrogates (cs.map Char.toNat) = some cs := by
  induction cs with
  | nil => rfl
  | cons c cs ih =>
    have hvalid : c.toNat < 0xD800 ∨ 0xDFFF < c.toNat ∧ c.toNat < 0x110000 := c.valid
    rw [List.map_cons, joinSurrogates.eq_def]
    dsimp only
    rw [if_neg (by omega), if_neg (by omega), ih, Char.ofNat_toNat]
    rfl

theorem textOf?_map_toNat (s : String) : textOf? (s.toList.map Char.toNat) = some s := by
  rw [textOf?, joinSurrogates_map_toNat, Option.map_some, String.ofList_toList]

end Document

/-! ## Integers -/

theorem Text.digitsFrom?_eq {ds : List Char} (h : ∀ c ∈ ds, c.isDigit = true) (acc : Nat) :
    digitsFrom? acc ds = some (Nat.ofDigitChars 10 ds acc) := by
  induction ds generalizing acc with
  | nil => rfl
  | cons c ds ih =>
    obtain ⟨hc, hds⟩ := List.forall_mem_cons.mp h
    rw [digitsFrom?, digit?, if_pos hc, Option.bind_some, ih hds, Nat.ofDigitChars_cons]
    rfl

theorem isDigit_toDigits (n : Nat) : ∀ c ∈ Nat.toDigits 10 n, c.isDigit = true :=
  fun _ => Nat.isDigit_of_mem_toDigits (by decide) (by decide)

theorem Text.digits?_toDigits (n : Nat) : digits? (Nat.toDigits 10 n) = some n := by
  have hread : digits? (Nat.toDigits 10 n) = digitsFrom? 0 (Nat.toDigits 10 n) := by
    cases hds : Nat.toDigits 10 n with
    | nil => exact absurd hds Nat.toDigits_ne_nil
    | cons c ds => rfl
  rw [hread, digitsFrom?_eq (isDigit_toDigits n), Nat.ofDigitChars_toDigits (by decide) (by decide)]

/-- The decimal digits of a positive number do not start with a zero. -/
theorem exists_toDigits_eq_cons {n : Nat} (h : 0 < n) :
    ∃ c ds, Nat.toDigits 10 n = c :: ds ∧ c ≠ '0' := by
  induction n using Nat.strongRecOn with
  | ind n ih =>
    by_cases hsmall : n < 10
    · have hdigit : ∀ n < 10, 0 < n → Nat.digitChar n ≠ '0' := by decide
      exact ⟨_, [], Nat.toDigits_of_lt_base hsmall, hdigit n hsmall h⟩
    · obtain ⟨c, ds, hds, hc⟩ := ih (n / 10) (by omega) (by omega)
      exact ⟨c, _, by rw [Nat.toDigits_of_base_le (by decide) (by omega), hds, List.cons_append], hc⟩

namespace Json

/-- A text does not go on with a numeral that stands before it. -/
def Stops (cs : List Char) : Prop :=
  ∀ c rest, cs = c :: rest → c.isDigit = false ∧ c ≠ '.' ∧ c ≠ 'e' ∧ c ≠ 'E'

namespace Numeral

/-- Digits are taken off the front of a text that does not go on with them. -/
theorem takeWhile_digits {ds rest : List Char} (hds : ∀ c ∈ ds, c.isDigit = true)
    (h : ∀ c cs, rest = c :: cs → c.isDigit = false) :
    (ds ++ rest).takeWhile Char.isDigit = ds ∧ (ds ++ rest).dropWhile Char.isDigit = rest := by
  rw [List.takeWhile_append_of_pos hds, List.dropWhile_append_of_pos hds]
  cases rest with
  | nil => exact ⟨List.append_nil _, rfl⟩
  | cons c cs =>
    have hc := h c cs rfl
    rw [List.takeWhile_cons_of_neg (by simp [hc]), List.dropWhile_cons_of_neg (by simp [hc])]
    exact ⟨List.append_nil _, rfl⟩

/-! ### Parts -/

/-- The digits before the point: a zero alone, or digits without a zero in front. -/
structure IsWhole (ds : List Char) : Prop where
  digits : ∀ c ∈ ds, c.isDigit = true
  first : ds = ['0'] ∨ ∃ c cs, ds = c :: cs ∧ c ≠ '0'

theorem isWhole_toDigits (n : Nat) : IsWhole (Nat.toDigits 10 n) := by
  refine ⟨isDigit_toDigits n, ?_⟩
  rcases Nat.eq_zero_or_pos n with rfl | hpos
  · exact Or.inl rfl
  · exact Or.inr (exists_toDigits_eq_cons hpos)

theorem takeWhole_append {ds rest : List Char} (hds : IsWhole ds)
    (h : ∀ c cs, rest = c :: cs → c.isDigit = false) : takeWhole (ds ++ rest) = some (ds, rest) := by
  obtain ⟨htake, hdrop⟩ := takeWhile_digits hds.digits h
  rcases hds.first with rfl | ⟨c, cs, rfl, hc⟩
  · cases rest with
    | nil => rfl
    | cons c cs =>
      change (if c.isDigit then none else some (['0'], c :: cs)) = _
      rw [h c cs rfl]
      rfl
  · rw [takeWhole]
    · rw [htake, hdrop, if_neg (List.cons_ne_nil c cs)]
    · intro c' cs' heq
      exact hc (List.cons.inj heq).1

/-- The digits after the point, with the point if there are any. -/
def point : List Char → List Char
  | [] => []
  | d :: ds => '.' :: d :: ds

theorem takeFraction_append {ds rest : List Char} (hds : ∀ c ∈ ds, c.isDigit = true)
    (h : ∀ c cs, rest = c :: cs → c.isDigit = false ∧ c ≠ '.') :
    takeFraction (point ds ++ rest) = some (ds, rest) := by
  cases ds with
  | nil =>
    change takeFraction rest = some ([], rest)
    unfold takeFraction
    split
    · exact absurd rfl (h _ _ rfl).2
    · rfl
  | cons d ds =>
    obtain ⟨htake, hdrop⟩ := takeWhile_digits hds fun c cs hrest => (h c cs hrest).1
    change takeFraction ('.' :: (d :: ds ++ rest)) = _
    rw [takeFraction]
    simp only [htake, hdrop, if_neg (List.cons_ne_nil d ds)]

/-- An exponent, which has a sign, and what it stands for. -/
inductive IsExponent : List Char → Option Int → Prop
  | none : IsExponent [] none
  | plus (n : Nat) : IsExponent ('e' :: '+' :: Nat.toDigits 10 n) (some n)
  | minus (n : Nat) : IsExponent ('e' :: '-' :: Nat.toDigits 10 n) (some (-n))

theorem takeExponent_append {cs rest : List Char} {e : Option Int} (he : IsExponent cs e)
    (h : Stops rest) : takeExponent (cs ++ rest) = some (e, rest) := by
  have hdigits : ∀ negative n, takeExponentDigits negative (Nat.toDigits 10 n ++ rest) =
      some (some (if negative then -(n : Int) else n), rest) := fun negative n => by
    obtain ⟨htake, hdrop⟩ := takeWhile_digits (isDigit_toDigits n) fun c cs hrest => (h c cs hrest).1
    rw [takeExponentDigits, htake, hdrop, Text.digits?_toDigits]
    rfl
  cases he with
  | none =>
    cases rest with
    | nil => rfl
    | cons c cs =>
      obtain ⟨_, _, he, hE⟩ := h c cs rfl
      simp [takeExponent, he, hE]
  | plus n => exact hdigits false n
  | minus n => exact hdigits true n

/-- What follows the digits of a numeral starts neither with a digit nor with a point. -/
theorem IsExponent.stops {cs rest : List Char} {e : Option Int} (he : IsExponent cs e) (h : Stops rest) :
    ∀ c cs', cs ++ rest = c :: cs' → c.isDigit = false ∧ c ≠ '.' := by
  intro c cs' heq
  cases he with
  | none => exact (h c cs' heq).imp id And.left
  | plus n =>
    cases heq
    decide
  | minus n =>
    cases heq
    decide

/-- **A numeral is taken** part by part off the front of a text that does not go on with it. -/
theorem takeUnsigned_append (negative : Bool) {whole fraction cs : List Char} {exponent : Option Int}
    (hwhole : IsWhole whole) (hfraction : ∀ c ∈ fraction, c.isDigit = true)
    (hexponent : IsExponent cs exponent) {rest : List Char} (h : Stops rest) :
    takeUnsigned negative (whole ++ point fraction ++ cs ++ rest) =
      some ({ negative, whole, fraction, exponent }, rest) := by
  have hnext := hexponent.stops h
  have hpoint : ∀ c cs', point fraction ++ (cs ++ rest) = c :: cs' → c.isDigit = false := by
    intro c cs' heq
    cases fraction with
    | nil => exact (hnext c cs' heq).1
    | cons d ds =>
      cases heq
      decide
  simp [takeUnsigned, takeWhole_append hwhole hpoint, takeFraction_append hfraction hnext,
    takeExponent_append hexponent h]

/-! ### Integers -/

theorem takeUnsigned_toDigits {rest : List Char} (h : Stops rest) (negative : Bool) (n : Nat) :
    takeUnsigned negative (Nat.toDigits 10 n ++ rest) =
      some ({ negative, whole := Nat.toDigits 10 n, fraction := [], exponent := none }, rest) := by
  have hdigits : Nat.toDigits 10 n ++ rest = Nat.toDigits 10 n ++ point [] ++ [] ++ rest := by
    rw [point, List.append_nil, List.append_nil]
  rw [hdigits]
  exact takeUnsigned_append negative (isWhole_toDigits n) (List.forall_mem_nil _) .none h

theorem number?_toDigits {negative : Bool} {m : Nat} {n : Word}
    (hval : n.val = if negative then -(m : Int) else m) (hzero : ¬(negative = true ∧ m = 0)) :
    number? { negative, whole := Nat.toDigits 10 m, fraction := [], exponent := none } =
      some (.integer n) := by
  have hword : word? { negative, whole := Nat.toDigits 10 m, fraction := [], exponent := none } =
      some n := by
    rw [word?, if_pos ⟨rfl, rfl⟩, Text.digits?_toDigits, Option.bind_some, dif_pos ⟨hval ▸ n.2, hzero⟩]
    exact congrArg some (Subtype.ext hval.symm)
  rw [number?, hword]

/-- The text of an integer is that of its absolute value, perhaps with a sign in front. -/
theorem chars_word (n : Word) :
    (∃ m : Nat, n.val = m ∧ (Number.integer n).chars = Nat.toDigits 10 m) ∨
      ∃ m : Nat, n.val = -((m + 1 : Nat) : Int) ∧
        (Number.integer n).chars = '-' :: Nat.toDigits 10 (m + 1) := by
  obtain ⟨k, hk⟩ := n
  cases k with
  | ofNat m => exact Or.inl ⟨m, rfl, Nat.toList_repr⟩
  | negSucc m =>
    have htext : toString (Int.negSucc m) = "-" ++ (m + 1).repr := rfl
    refine Or.inr ⟨m, rfl, ?_⟩
    rw [Number.chars, htext, String.toList_append, Nat.toList_repr]
    rfl

/-- The text of an integer starts with a sign or a digit. -/
theorem exists_chars_word (n : Word) :
    ∃ c cs, (Number.integer n).chars = c :: cs ∧ (c = '-' ∨ c.isDigit = true) := by
  rcases chars_word n with ⟨m, _, hchars⟩ | ⟨m, _, hchars⟩
  · cases hds : Nat.toDigits 10 m with
    | nil => exact absurd hds Nat.toDigits_ne_nil
    | cons c ds =>
      exact ⟨c, ds, hchars.trans hds, Or.inr (isDigit_toDigits m c (hds ▸ List.mem_cons_self))⟩
  · exact ⟨'-', _, hchars, Or.inl rfl⟩

/-- **An integer is read back** from its text, if nothing goes on with it. -/
theorem take_word {rest : List Char} (h : Stops rest) (n : Word) :
    ∃ x, take ((Number.integer n).chars ++ rest) = some (x, rest) ∧ x.number? = some (.integer n) := by
  rcases chars_word n with ⟨m, hval, hchars⟩ | ⟨m, hval, hchars⟩
  · have htake : take (Nat.toDigits 10 m ++ rest) = takeUnsigned false (Nat.toDigits 10 m ++ rest) := by
      rw [take]
      intro cs hsign
      cases hds : Nat.toDigits 10 m with
      | nil => exact Nat.toDigits_ne_nil hds
      | cons c ds =>
        have hdigit := isDigit_toDigits m c (hds ▸ List.mem_cons_self)
        rw [hds] at hsign
        cases (List.cons.inj hsign).1
        cases hdigit
    rw [hchars, htake, takeUnsigned_toDigits h]
    exact ⟨_, rfl, number?_toDigits hval nofun⟩
  · rw [hchars, List.cons_append, take, takeUnsigned_toDigits h]
    exact ⟨_, rfl, number?_toDigits hval fun hzero => Nat.succ_ne_zero m hzero.2⟩

/-- What a character is not that starts the text of an integer. -/
theorem ne_of_first {c d : Char} (hc : c = '-' ∨ c.isDigit = true) (hd : d ≠ '-' ∧ d.isDigit = false) :
    c ≠ d := by
  rintro rfl
  rcases hc with hc | hc
  · exact hd.1 hc
  · rw [hd.2] at hc
    cases hc

end Numeral

end Json

namespace Document

/-! ## White space -/

theorem skipSpace_append {blank cs : List Char} (h : ∀ c ∈ blank, isSpace c = true) :
    skipSpace (blank ++ cs) = skipSpace cs :=
  List.dropWhile_append_of_pos h

theorem skipSpace_cons {c : Char} (h : isSpace c = false) (cs : List Char) :
    skipSpace (c :: cs) = c :: cs :=
  List.dropWhile_cons_of_neg (by simp [h])

theorem front_of_items {cs cs₁ : List Char} (h : skipSpace cs = '[' :: cs₁)
    (hne : ∀ rest, skipSpace cs₁ ≠ ']' :: rest) :
    front cs = (.array (frontItems cs₁).1, (frontItems cs₁).2) := by
  have hopen : front cs = match skipSpace cs₁ with
      | ']' :: rest => (.array [], rest)
      | _ => (.array (frontItems cs₁).1, (frontItems cs₁).2) := by
    rw [front_eq, h]
    rfl
  rw [hopen]
  split
  · next rest heq => exact absurd heq (hne rest)
  · rfl

theorem front_of_members {cs cs₁ : List Char} (h : skipSpace cs = '\x7b' :: cs₁)
    (hne : ∀ rest, skipSpace cs₁ ≠ '\x7d' :: rest) :
    front cs = (.object (frontMembers cs₁).1, (frontMembers cs₁).2) := by
  have hopen : front cs = match skipSpace cs₁ with
      | '\x7d' :: rest => (.object [], rest)
      | _ => (.object (frontMembers cs₁).1, (frontMembers cs₁).2) := by
    rw [front_eq, h]
    rfl
  rw [hopen]
  split
  · next rest heq => exact absurd heq (hne rest)
  · rfl

theorem frontItems_of_comma {cs after next : List Char} {d : Document} (h : front cs = (d, after))
    (hnext : skipSpace after = ',' :: next) :
    frontItems cs = (d :: (frontItems next).1, (frontItems next).2) := by
  rw [frontItems_eq, h, hnext]
  rfl

theorem frontItems_of_close {cs after rest : List Char} {d : Document} (h : front cs = (d, after))
    (hrest : skipSpace after = ']' :: rest) : frontItems cs = ([d], rest) := by
  rw [frontItems_eq, h, hrest]
  rfl

/-- The members at the front of a text, once the first of them is read up to what follows it. -/
theorem frontMembers_of_first {cs cs₁ value after : List Char} {k : String} {d : Document}
    (h : skipSpace cs = '"' :: cs₁) (hkey : takeString cs₁ = some (k.toList.map Char.toNat, ':' :: value))
    (hvalue : front value = (d, after)) :
    frontMembers cs = match skipSpace after with
      | ',' :: next => ((some k, d) :: (frontMembers next).1, (frontMembers next).2)
      | '\x7d' :: rest => ([(some k, d)], rest)
      | _ => ([(some k, d), (none, .broken)], []) := by
  have hcolon : isSpace ':' = false := by decide
  rw [frontMembers_eq, h]
  simp only [hkey, skipSpace_cons hcolon, textOf?_map_toNat, hvalue]

theorem front_of_leaf {cs cs₁ : List Char} {c : Char} (h : skipSpace cs = c :: cs₁)
    (hc : c ≠ '[' ∧ c ≠ '\x7b' ∧ c ≠ '"') : front cs = takeLeaf (c :: cs₁) := by
  rw [front_eq, h]
  split
  · next heq => exact absurd (List.cons.inj heq).1 hc.1
  · next heq => exact absurd (List.cons.inj heq).1 hc.2.1
  · next heq => exact absurd (List.cons.inj heq).1 hc.2.2
  · rfl

end Document

end Targeting
