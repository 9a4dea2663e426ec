import Targeting.Proofs.Numerals

/-!
# JSON texts read back

The text of a value is read as the document of the value, whether it is written compactly or over several
lines, as long as the value has no number but integers. Other numbers are read as what the reader makes of
their own texts, which may be a neighbour of a double.

* `Json.Whole`: values without other numbers;
* `Json.reread`, `Json.reread_of_whole`: what the reader makes of a value;
* `Json.Layout`, `Json.Layout.chars`: both ways of writing a value in one;
* **`Json.Layout.front_chars`**: a value read from the front of a text;
* `Document.ofText_layout`: the document of its text; `Document.ofText_compact`, `Document.ofText_pretty`: a
  value read back from its texts.
-/

namespace Targeting

namespace Json

mutual

/-- A value has no number but integers. -/
def Whole : Json → Prop
  | .number (.float _) => False
  | .array items => WholeItems items
  | .object members => WholeMembers members
  | _ => True

/-- Items have no number but integers. -/
def WholeItems : List Json → Prop
  | [] => True
  | v :: rest => v.Whole ∧ WholeItems rest

/-- Members have no number but integers. -/
def WholeMembers : List (String × Json) → Prop
  | [] => True
  | (_, v) :: rest => v.Whole ∧ WholeMembers rest

end

theorem wholeMembers_iff {ms : List (String × Json)} : WholeMembers ms ↔ ∀ m ∈ ms, m.2.Whole := by
  induction ms with
  | nil => simp [WholeMembers]
  | cons m ms ih => simp [WholeMembers, ih]

mutual

/-- What the reader makes of the text of a value. -/
def reread : Json → Document
  | .null => .null
  | .bool b => .bool b
  | .number n => n.reread
  | .string s => .string s
  | .array items => .array (rereadItems items)
  | .object members => .object (rereadMembers members)

/-- What the reader makes of the texts of items. -/
def rereadItems : List Json → List Document
  | [] => []
  | v :: rest => v.reread :: rereadItems rest

/-- What the reader makes of the texts of members. -/
def rereadMembers : List (String × Json) → List (Option String × Document)
  | [] => []
  | (k, v) :: rest => (some k, v.reread) :: rereadMembers rest

end

mutual

/-- Values with no number but integers are read back. -/
theorem reread_of_whole {v : Json} (hv : v.Whole) : v.reread = Document.ofJson v := by
  cases v with
  | number n =>
    cases n with
    | integer n => exact Number.reread_integer n
    | float x => exact hv.elim
  | array items => exact congrArg Document.array (rereadItems_of_whole hv)
  | object members => exact congrArg Document.object (rereadMembers_of_whole hv)
  | _ => rfl

theorem rereadItems_of_whole {items : List Json} (h : WholeItems items) :
    rereadItems items = Document.ofJsonItems items := by
  cases items with
  | nil => rfl
  | cons v rest => rw [rereadItems, reread_of_whole h.1, rereadItems_of_whole h.2, Document.ofJsonItems]

theorem rereadMembers_of_whole {members : List (String × Json)} (h : WholeMembers members) :
    rereadMembers members = Document.ofJsonMembers members := by
  cases members with
  | nil => rfl
  | cons m rest =>
    obtain ⟨k, v⟩ := m
    rw [rereadMembers, reread_of_whole h.1, rereadMembers_of_whole h.2, Document.ofJsonMembers]

end

/-- A way of writing values: the white space before the items of a level and before what closes the level
above, and after colons. -/
structure Layout where
  gap : Nat → List Char
  afterColon : List Char
  blank_gap : ∀ level, ∀ c ∈ gap level, Document.isSpace c = true
  blank_afterColon : ∀ c ∈ afterColon, Document.isSpace c = true

namespace Layout

open Document

variable (l : Layout)

mutual

/-- The text of a value from a level on. -/
def chars (level : Nat) : Json → List Char
  | .array (v :: rest) => '[' :: (itemChars (level + 1) (v :: rest) ++ l.gap level ++ [']'])
  | .object (m :: rest) => '\x7b' :: (memberChars (level + 1) (m :: rest) ++ l.gap level ++ ['\x7d'])
  | v => v.chars

/-- Items with commas between them. -/
def itemChars (level : Nat) : List Json → List Char
  | [] => []
  | [v] => l.gap level ++ chars level v
  | v :: w :: rest => l.gap level ++ chars level v ++ ',' :: itemChars level (w :: rest)

/-- Members with commas between them. -/
def memberChars (level : Nat) : List (String × Json) → List Char
  | [] => []
  | [(k, v)] => l.gap level ++ stringChars k ++ ':' :: (l.afterColon ++ chars level v)
  | (k, v) :: m :: rest =>
    l.gap level ++ stringChars k ++
      ':' :: (l.afterColon ++ chars level v ++ ',' :: memberChars level (m :: rest))

end

/-- The text of a value starts neither with white space nor with a closing bracket. -/
theorem exists_chars (v : Json) (level : Nat) :
    ∃ c cs, l.chars level v = c :: cs ∧ isSpace c = false ∧ c ≠ ']' := by
  cases v with
  | null => exact ⟨_, _, rfl, by decide, by decide⟩
  | bool b => cases b <;> exact ⟨_, _, rfl, by decide, by decide⟩
  | number n =>
    obtain ⟨c, cs, hchars, hc⟩ := n.exists_chars
    refine ⟨c, cs, hchars, ?_, Numeral.ne_of_first hc (by decide)⟩
    simp [isSpace, Numeral.ne_of_first hc]
  | string s => exact ⟨_, _, rfl, by decide, by decide⟩
  | array items => cases items <;> exact ⟨_, _, rfl, by decide, by decide⟩
  | object members => cases members <;> exact ⟨_, _, rfl, by decide, by decide⟩

variable {l}

theorem skipSpace_chars (v : Json) (level : Nat) {blank : List Char}
    (hblank : ∀ c ∈ blank, isSpace c = true) (rest : List Char) :
    skipSpace (blank ++ (l.chars level v ++ rest)) = l.chars level v ++ rest := by
  obtain ⟨c, cs, hchars, hspace, _⟩ := l.exists_chars v level
  rw [skipSpace_append hblank, hchars]
  exact skipSpace_cons hspace _

theorem stops_cons {c : Char} (hc : c.isDigit = false ∧ c ≠ '.' ∧ c ≠ 'e' ∧ c ≠ 'E') (rest : List Char) :
    Stops (c :: rest) := by
  intro d rest' heq
  cases heq
  exact hc

theorem stops_of_blank {blank : List Char} (hblank : ∀ c ∈ blank, isSpace c = true) {c : Char}
    (hc : c.isDigit = false ∧ c ≠ '.' ∧ c ≠ 'e' ∧ c ≠ 'E') (rest : List Char) :
    Stops (blank ++ c :: rest) := by
  cases blank with
  | nil => exact stops_cons hc rest
  | cons b blank =>
    intro d rest' heq
    cases heq
    have hspace := hblank _ List.mem_cons_self
    simp only [isSpace, Bool.or_eq_true, decide_eq_true_eq] at hspace
    rcases hspace with ((h | h) | h) | h <;> exact h ▸ by decide

theorem skipSpace_itemChars (v : Json) (items : List Json) (level : Nat) (rest : List Char) :
    ∃ c cs, skipSpace (l.itemChars level (v :: items) ++ rest) = c :: cs ∧ c ≠ ']' := by
  obtain ⟨c, cs, hchars, _, hc⟩ := l.exists_chars v level
  have htext : ∃ more,
      l.itemChars level (v :: items) ++ rest = l.gap level ++ (l.chars level v ++ more) := by
    cases items with
    | nil => exact ⟨_, List.append_assoc _ _ _⟩
    | cons w items => exact ⟨_, by rw [itemChars, List.append_assoc, List.append_assoc]⟩
  obtain ⟨more, hmore⟩ := htext
  rw [hmore, skipSpace_chars v level (l.blank_gap level), hchars]
  exact ⟨c, _, rfl, hc⟩

/-- The text of a member and of what follows it. -/
def memberText (l : Layout) (level : Nat) (k : String) (v : Json) (next : List Char) : List Char :=
  l.gap level ++ ('"' :: (k.toList.flatMap escapeChar ++
    '"' :: ':' :: (l.afterColon ++ (l.chars level v ++ next))))

theorem memberChars_singleton (level : Nat) (k : String) (v : Json) (rest : List Char) :
    l.memberChars level [(k, v)] ++ rest = l.memberText level k v rest := by
  simp [memberChars, memberText, stringChars]

theorem memberChars_cons (level : Nat) (k : String) (v : Json) (m : String × Json)
    (ms : List (String × Json)) (rest : List Char) : l.memberChars level ((k, v) :: m :: ms) ++ rest =
      l.memberText level k v (',' :: (l.memberChars level (m :: ms) ++ rest)) := by
  simp [memberChars, memberText, stringChars]

theorem skipSpace_memberText (level : Nat) (k : String) (v : Json) (next : List Char) :
    skipSpace (l.memberText level k v next) = '"' :: (k.toList.flatMap escapeChar ++
      '"' :: ':' :: (l.afterColon ++ (l.chars level v ++ next))) := by
  rw [memberText, skipSpace_append (l.blank_gap level), skipSpace_cons (by decide)]

theorem skipSpace_memberChars (m : String × Json) (ms : List (String × Json)) (level : Nat)
    (rest : List Char) : ∃ cs, skipSpace (l.memberChars level (m :: ms) ++ rest) = '"' :: cs := by
  cases ms with
  | nil => exact ⟨_, by rw [memberChars_singleton, skipSpace_memberText]⟩
  | cons m' ms => exact ⟨_, by rw [memberChars_cons, skipSpace_memberText]⟩

/-- A member is read if its value is. -/
theorem frontMembers_memberText {level : Nat} {k : String} {v : Json} {next : List Char}
    (hv : front (l.afterColon ++ (l.chars level v ++ next)) = (v.reread, next)) :
    frontMembers (l.memberText level k v next) = match skipSpace next with
      | ',' :: next => ((some k, v.reread) :: (frontMembers next).1, (frontMembers next).2)
      | '\x7d' :: rest => ([(some k, v.reread)], rest)
      | _ => ([(some k, v.reread), (none, .broken)], []) :=
  frontMembers_of_first (skipSpace_memberText level k v next) (takeString_flatMap _ _) hv

mutual

/-- **A value is read** from its text. -/
theorem front_chars (v : Json) (level : Nat) {cs rest : List Char} (hrest : Stops rest)
    (hcs : skipSpace cs = l.chars level v ++ rest) : front cs = (v.reread, rest) := by
  cases v with
  | null =>
    rw [front_of_leaf hcs (by decide)]
    rfl
  | bool b =>
    cases b with
    | true =>
      rw [front_of_leaf hcs (by decide)]
      rfl
    | false =>
      rw [front_of_leaf hcs (by decide)]
      rfl
  | number n =>
    obtain ⟨c, cs', hchars, hc⟩ := n.exists_chars
    have hdigits : skipSpace cs = c :: (cs' ++ rest) := hcs.trans (congrArg (· ++ rest) hchars)
    rw [front_of_leaf hdigits, ← List.cons_append, ← hchars, takeLeaf_chars hrest, reread]
    exact ⟨Numeral.ne_of_first hc (by decide), Numeral.ne_of_first hc (by decide),
      Numeral.ne_of_first hc (by decide)⟩
  | string s =>
    have hquote : skipSpace cs = '"' :: (s.toList.flatMap escapeChar ++ '"' :: rest) := by
      have hchars : l.chars level (.string s) = stringChars s := rfl
      rw [hcs, hchars, stringChars, List.cons_append, List.append_assoc]
      rfl
    rw [front_eq, hquote]
    simp only [takeString_flatMap, textOf?_map_toNat]
    rfl
  | array items =>
    cases items with
    | nil =>
      have hopen : skipSpace cs = '[' :: ']' :: rest := hcs
      rw [front_eq, hopen]
      simp only [skipSpace_cons (show isSpace ']' = false by decide)]
      rfl
    | cons v items =>
      have hopen : skipSpace cs =
          '[' :: (l.itemChars (level + 1) (v :: items) ++ (l.gap level ++ ']' :: rest)) := by
        rw [hcs, Layout.chars]
        simp only [List.cons_append, List.append_assoc, List.nil_append]
      have hitems := frontItems_itemChars (List.cons_ne_nil v items) (level + 1) (l.blank_gap level) rest
      obtain ⟨c, cs', hskip, hc⟩ :=
        skipSpace_itemChars v items (level + 1) (l.gap level ++ ']' :: rest)
      rw [front_of_items hopen, hitems]
      · rfl
      · exact fun _ heq => hc (List.cons.inj (hskip.symm.trans heq)).1
  | object members =>
    cases members with
    | nil =>
      have hopen : skipSpace cs = '\x7b' :: '\x7d' :: rest := hcs
      rw [front_eq, hopen]
      simp only [skipSpace_cons (show isSpace '\x7d' = false by decide)]
      rfl
    | cons m members =>
      have hopen : skipSpace cs =
          '\x7b' :: (l.memberChars (level + 1) (m :: members) ++ (l.gap level ++ '\x7d' :: rest)) := by
        rw [hcs, Layout.chars]
        simp only [List.cons_append, List.append_assoc, List.nil_append]
      have hmembers := frontMembers_memberChars (List.cons_ne_nil m members) (level + 1)
        (l.blank_gap level) rest
      obtain ⟨cs', hskip⟩ :=
        skipSpace_memberChars m members (level + 1) (l.gap level ++ '\x7d' :: rest)
      rw [front_of_members hopen, hmembers]
      · rfl
      · exact fun _ heq => absurd (List.cons.inj (hskip.symm.trans heq)).1 (by decide)

/-- Items are read. -/
theorem frontItems_itemChars {items : List Json} (hne : items ≠ []) (level : Nat) {blank : List Char}
    (hblank : ∀ c ∈ blank, isSpace c = true) (rest : List Char) :
    frontItems (l.itemChars level items ++ (blank ++ ']' :: rest)) = (rereadItems items, rest) := by
  cases items with
  | nil => exact absurd rfl hne
  | cons v tail =>
    cases tail with
    | nil =>
      have hfront : front (l.itemChars level [v] ++ (blank ++ ']' :: rest)) =
          (v.reread, blank ++ ']' :: rest) := by
        refine front_chars v level (stops_of_blank hblank (by decide) rest) ?_
        rw [Layout.itemChars, List.append_assoc]
        exact skipSpace_chars v level (l.blank_gap level) _
      refine frontItems_of_close hfront ?_
      rw [skipSpace_append hblank, skipSpace_cons (by decide)]
    | cons w tail =>
      have hrest := frontItems_itemChars (List.cons_ne_nil w tail) level hblank rest
      have hfront : front (l.itemChars level (v :: w :: tail) ++ (blank ++ ']' :: rest)) =
          (v.reread, ',' :: (l.itemChars level (w :: tail) ++ (blank ++ ']' :: rest))) := by
        refine front_chars v level (stops_cons (by decide) _) ?_
        rw [Layout.itemChars, List.append_assoc, List.append_assoc]
        exact skipSpace_chars v level (l.blank_gap level) _
      rw [frontItems_of_comma hfront (skipSpace_cons (by decide) _), hrest]
      rfl

/-- Members are read. -/
theorem frontMembers_memberChars {ms : List (String × Json)} (hne : ms ≠ []) (level : Nat) {blank : List Char}
    (hblank : ∀ c ∈ blank, isSpace c = true) (rest : List Char) :
    frontMembers (l.memberChars level ms ++ (blank ++ '\x7d' :: rest)) = (rereadMembers ms, rest) := by
  cases ms with
  | nil => exact absurd rfl hne
  | cons m tail =>
    obtain ⟨k, v⟩ := m
    have hvalue : ∀ next, Stops next →
        front (l.afterColon ++ (l.chars level v ++ next)) = (v.reread, next) := fun next hnext =>
      front_chars v level hnext (skipSpace_chars v level l.blank_afterColon next)
    cases tail with
    | nil =>
      rw [memberChars_singleton,
        frontMembers_memberText (hvalue _ (stops_of_blank hblank (by decide) rest)),
        skipSpace_append hblank, skipSpace_cons (by decide)]
      rfl
    | cons m tail =>
      have htail := frontMembers_memberChars (List.cons_ne_nil m tail) level hblank rest
      rw [memberChars_cons,
        frontMembers_memberText (hvalue _ (stops_cons (by decide) _)), skipSpace_cons (by decide)]
      simp only [htail]
      rfl

end

/-- The compact way, without any white space. -/
def compact : Layout where
  gap _ := []
  afterColon := []
  blank_gap _ := nofun
  blank_afterColon := nofun

/-- The way over several lines. -/
def pretty : Layout where
  gap := newLine
  afterColon := [' ']
  blank_gap level c hc := by
    rcases List.mem_cons.mp hc with rfl | hc
    · decide
    · rw [List.eq_of_mem_replicate hc]
      decide
  blank_afterColon c hc := by
    rw [List.mem_singleton.mp hc]
    decide

mutual

theorem chars_compact (level : Nat) (v : Json) : compact.chars level v = v.chars := by
  cases v with
  | array items =>
    cases items with
    | nil => rfl
    | cons v items =>
      rw [chars, itemChars_compact, Json.chars, compact, List.append_nil]
  | object members =>
    cases members with
    | nil => rfl
    | cons m members =>
      rw [chars, memberChars_compact, Json.chars, compact, List.append_nil]
  | _ => rfl

theorem itemChars_compact (level : Nat) (items : List Json) :
    compact.itemChars level items = Json.itemChars items := by
  cases items with
  | nil => rfl
  | cons v items =>
    have hv := chars_compact level v
    cases items with
    | nil => exact hv
    | cons w items =>
      have hitems := itemChars_compact level (w :: items)
      rw [itemChars, hv, hitems]
      rfl

theorem memberChars_compact (level : Nat) (members : List (String × Json)) :
    compact.memberChars level members = Json.memberChars members := by
  cases members with
  | nil => rfl
  | cons m members =>
    obtain ⟨k, v⟩ := m
    have hv := chars_compact level v
    cases members with
    | nil =>
      rw [memberChars, hv]
      rfl
    | cons m members =>
      have hmembers := memberChars_compact level (m :: members)
      rw [memberChars, hv, hmembers]
      rfl

end

mutual

theorem chars_pretty (level : Nat) (v : Json) : pretty.chars level v = prettyChars level v := by
  cases v with
  | array items =>
    cases items with
    | nil => rfl
    | cons v items => rw [chars, itemChars_pretty, prettyChars, pretty]
  | object members =>
    cases members with
    | nil => rfl
    | cons m members => rw [chars, memberChars_pretty, prettyChars, pretty]
  | _ => rfl

theorem itemChars_pretty (level : Nat) (items : List Json) :
    pretty.itemChars level items = prettyItems level items := by
  cases items with
  | nil => rfl
  | cons v items =>
    have hv := chars_pretty level v
    cases items with
    | nil => rw [itemChars, hv, prettyItems, pretty]
    | cons w items => rw [itemChars, hv, itemChars_pretty level (w :: items), prettyItems, pretty]

theorem memberChars_pretty (level : Nat) (members : List (String × Json)) :
    pretty.memberChars level members = prettyMembers level members := by
  cases members with
  | nil => rfl
  | cons m members =>
    obtain ⟨k, v⟩ := m
    have hv := chars_pretty level v
    cases members with
    | nil =>
      rw [memberChars, hv, prettyMembers]
      rfl
    | cons m members =>
      rw [memberChars, hv, memberChars_pretty level (m :: members), prettyMembers]
      rfl

end

end Layout

end Json

namespace Document

/-- **The document of the text of a value** is what the reader makes of it. -/
theorem ofText_layout (l : Json.Layout) (v : Json) :
    ofText (String.ofList (l.chars 0 v)) = { root := v.reread, ends := true } := by
  have hskip : skipSpace (l.chars 0 v) = l.chars 0 v ++ [] := by
    obtain ⟨c, cs, hchars, hspace, _⟩ := l.exists_chars v 0
    rw [hchars, List.append_nil, skipSpace_cons hspace]
  have hfront : front (l.chars 0 v) = (v.reread, []) := Json.Layout.front_chars v 0 nofun hskip
  rw [ofText_eq, String.toList_ofList, hfront]
  rfl

theorem ofText_chars (l : Json.Layout) {v : Json} (hv : v.Whole) :
    ofText (String.ofList (l.chars 0 v)) = { root := ofJson v, ends := true } := by
  rw [ofText_layout, Json.reread_of_whole hv]

/-- **A value is read back** from its compact text. -/
theorem ofText_compact {v : Json} (hv : v.Whole) :
    ofText v.compact = { root := ofJson v, ends := true } := by
  rw [Json.compact, ← Json.Layout.chars_compact 0]
  exact ofText_chars .compact hv

/-- **A value is read back** from its text over several lines. -/
theorem ofText_pretty {v : Json} (hv : v.Whole) :
    ofText v.pretty = { root := ofJson v, ends := true } := by
  rw [Json.pretty, ← Json.Layout.chars_pretty]
  exact ofText_chars .pretty hv

end Document

end Targeting
