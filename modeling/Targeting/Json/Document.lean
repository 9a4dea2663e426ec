import Targeting.Json.Numeral

/-!
# JSON documents

A document is the tree of a JSON text as far as the text goes. Where the text stops being JSON, the
tree has a `broken` leaf, and nothing follows; so whoever walks the tree in order meets the problems
of the text in the order of the text. A leaf that is written correctly but stands for no value (a
numeral beyond every double, a string with half a surrogate pair) is `unreadable`: it may be
skipped, but not read.

* `Document`, `Document.ofText`: the tree and how it is read from a text;
* `Document.intact`: nothing in the tree is broken, so that it may be skipped;
* `Document.toJson?`: the value of a tree without any problem, nested no deeper than allowed;
* `Json.parse?`: the value of a text.
-/

namespace Targeting

/-- The tree of a JSON text. A member whose key is unreadable or missing has no key. -/
inductive Document
  | null
  | bool (b : Bool)
  | number (n : Json.Number)
  | string (s : String)
  | unreadable
  | broken
  | array (items : List Document)
  | object (members : List (Option String × Document))

namespace Document

instance : Inhabited Document := ⟨.broken⟩

/-! ## Strings -/

/-- The value of a hexadecimal digit. -/
def hexDigit? (c : Char) : Option Nat :=
  if c.isDigit then some (c.toNat - 48)
  else if 'a' ≤ c ∧ c ≤ 'f' then some (c.toNat - 87)
  else if 'A' ≤ c ∧ c ≤ 'F' then some (c.toNat - 55)
  else none

/-- The value of four hexadecimal digits. -/
def hex? (a b c d : Char) : Option Nat := do
  return ((← hexDigit? a) * 16 + (← hexDigit? b)) * 256 + (← hexDigit? c) * 16 + (← hexDigit? d)

/-- The character that a short escape stands for. -/
def shortEscape? (c : Char) : Option Char :=
  match c with
  | '"' => some '"'
  | '\\' => some '\\'
  | '/' => some '/'
  | 'b' => some '\x08'
  | 'f' => some '\x0c'
  | 'n' => some '\n'
  | 'r' => some '\r'
  | 't' => some '\t'
  | _ => none

/-- The numbers of the characters up to the closing quote, and what follows it. -/
def takeString : List Char → Option (List Nat × List Char)
  | [] => none
  | '"' :: cs => some ([], cs)
  | '\\' :: 'u' :: a :: b :: c :: d :: cs => do
    let n ← hex? a b c d
    let (ns, rest) ← takeString cs
    return (n :: ns, rest)
  | '\\' :: e :: cs => do
    let c ← shortEscape? e
    let (ns, rest) ← takeString cs
    return (c.toNat :: ns, rest)
  | c :: cs =>
    if c.toNat < 0x20 || c = '\\' then none
    else (takeString cs).map fun (ns, rest) => (c.toNat :: ns, rest)

/-- Characters from their numbers, surrogates in pairs; nothing where one stands alone. -/
def joinSurrogates : List Nat → Option (List Char)
  | [] => some []
  | n :: ns =>
    if 0xD800 ≤ n ∧ n ≤ 0xDBFF then
      match ns with
      | [] => none
      | m :: ms =>
        if 0xDC00 ≤ m ∧ m ≤ 0xDFFF then
          (joinSurrogates ms).map (Char.ofNat (0x10000 + (n - 0xD800) * 0x400 + (m - 0xDC00)) :: ·)
        else none
    else if 0xDC00 ≤ n ∧ n ≤ 0xDFFF then none
    else (joinSurrogates ns).map (Char.ofNat n :: ·)

/-- The text of the characters with the given numbers. -/
def textOf? (ns : List Nat) : Option String := (joinSurrogates ns).map String.ofList

theorem takeString_length {cs rest : List Char} {ns : List Nat}
    (h : takeString cs = some (ns, rest)) : rest.length < cs.length := by
  fun_induction takeString cs generalizing ns rest with
  | case1 => simp at h
  | case2 cs => simp_all
  | case3 a b c d cs ih =>
    simp only [Option.bind_eq_bind, Option.bind_eq_some_iff, Option.pure_def, Option.some.injEq,
      Prod.mk.injEq, Prod.exists] at h
    obtain ⟨_, _, _, _, h, _, rfl⟩ := h
    have := ih h
    simp only [List.length_cons]
    omega
  | case4 e cs _ ih =>
    simp only [Option.bind_eq_bind, Option.bind_eq_some_iff, Option.pure_def, Option.some.injEq,
      Prod.mk.injEq, Prod.exists] at h
    obtain ⟨_, _, _, _, h, _, rfl⟩ := h
    have := ih h
    simp only [List.length_cons]
    omega
  | case5 => simp at h
  | case6 c cs _ _ _ _ ih =>
    simp only [Option.map_eq_some_iff, Prod.mk.injEq, Prod.exists] at h
    obtain ⟨_, _, h, _, rfl⟩ := h
    have := ih h
    simp only [List.length_cons]
    omega

/-! ## Values -/

/-- The white space of JSON. -/
def isSpace (c : Char) : Bool := c = ' ' || c = '\t' || c = '\n' || c = '\r'

/-- A text without white space in front. -/
def skipSpace (cs : List Char) : List Char := cs.dropWhile isSpace

/-- What follows a given word at the front. -/
def takeWord (word cs : List Char) : Option (List Char) :=
  if word.isPrefixOf cs then some (cs.drop word.length) else none

theorem skipSpace_length (cs : List Char) : (skipSpace cs).length ≤ cs.length :=
  (List.dropWhile_sublist _).length_le

/-- A leaf at the front, other than a string, and what follows it. -/
def takeLeaf (cs : List Char) : Document × List Char :=
  match cs with
  | 'n' :: _ => match takeWord "null".toList cs with
    | some rest => (.null, rest)
    | none => (.broken, [])
  | 't' :: _ => match takeWord "true".toList cs with
    | some rest => (.bool true, rest)
    | none => (.broken, [])
  | 'f' :: _ => match takeWord "false".toList cs with
    | some rest => (.bool false, rest)
    | none => (.broken, [])
  | _ => match Json.Numeral.take cs with
    | some (x, rest) => (match x.number? with | some n => .number n | none => .unreadable, rest)
    | none => (.broken, [])

theorem takeWord_length {word cs rest : List Char} (h : takeWord word cs = some rest) :
    rest.length ≤ cs.length := by
  unfold takeWord at h
  split at h
  · simp only [Option.some.injEq] at h; simp [← h]
  · simp at h

theorem takeLeaf_length (cs : List Char) : (takeLeaf cs).2.length ≤ cs.length := by
  unfold takeLeaf
  split
  · split
    · next h => exact takeWord_length h
    · simp
  · split
    · next h => exact takeWord_length h
    · simp
  · split
    · next h => exact takeWord_length h
    · simp
  · split
    · next h => exact Json.Numeral.take_length h
    · simp

/-- What is left of a text, never longer than the text. -/
abbrev Rest (cs : List Char) : Type := { rest : List Char // rest.length ≤ cs.length }

/-- Nothing is left of a text that is broken. -/
def Rest.none (cs : List Char) : Rest cs := ⟨[], Nat.zero_le _⟩

mutual

/-- The value at the front of a text and what follows it. -/
def takeValue (cs : List Char) : Document × Rest cs :=
  match h : skipSpace cs with
  | '[' :: cs₁ =>
    have hlt : cs₁.length < cs.length := by
      have := skipSpace_length cs; simp only [h, List.length_cons] at this; omega
    match h₁ : skipSpace cs₁ with
    | ']' :: rest =>
      (.array [], ⟨rest, by have := skipSpace_length cs₁; simp only [h₁, List.length_cons] at this; omega⟩)
    | _ =>
      let (items, rest) := takeItems cs₁
      (.array items, ⟨rest.1, by have := rest.2; omega⟩)
  | '\x7b' :: cs₁ =>
    have hlt : cs₁.length < cs.length := by
      have := skipSpace_length cs; simp only [h, List.length_cons] at this; omega
    match h₁ : skipSpace cs₁ with
    | '\x7d' :: rest =>
      (.object [], ⟨rest, by have := skipSpace_length cs₁; simp only [h₁, List.length_cons] at this; omega⟩)
    | _ =>
      let (members, rest) := takeMembers cs₁
      (.object members, ⟨rest.1, by have := rest.2; omega⟩)
  | '"' :: cs₁ =>
    match hs : takeString cs₁ with
    | some (ns, rest) =>
      (match textOf? ns with | some s => .string s | none => .unreadable,
        ⟨rest, by
          have h₁ := skipSpace_length cs
          have h₂ := takeString_length hs
          simp only [h, List.length_cons] at h₁
          omega⟩)
    | none => (.broken, Rest.none cs)
  | cs₁ =>
    ((takeLeaf cs₁).1, ⟨(takeLeaf cs₁).2, by
      have h₁ := skipSpace_length cs
      have h₂ := takeLeaf_length cs₁
      rw [h] at h₁
      omega⟩)
termination_by (cs.length, 0)

/-- Items up to the closing bracket, and what follows it. -/
def takeItems (cs : List Char) : List Document × Rest cs :=
  let (value, after) := takeValue cs
  have hle : (skipSpace after.1).length ≤ cs.length :=
    Nat.le_trans (skipSpace_length after.1) after.2
  match h : skipSpace after.1 with
  | ',' :: cs₁ =>
    have hlt : cs₁.length < cs.length := by simp only [h, List.length_cons] at hle; omega
    let (items, rest) := takeItems cs₁
    (value :: items, ⟨rest.1, by have := rest.2; omega⟩)
  | ']' :: rest => ([value], ⟨rest, by simp only [h, List.length_cons] at hle; omega⟩)
  | _ => ([value, .broken], Rest.none cs)
termination_by (cs.length, 1)

/-- Members up to the closing brace, and what follows it. -/
def takeMembers (cs : List Char) : List (Option String × Document) × Rest cs :=
  match h : skipSpace cs with
  | '"' :: cs₁ =>
    match hs : takeString cs₁ with
    | some (ns, afterKey) =>
      match hc : skipSpace afterKey with
      | ':' :: cs₂ =>
        have hlt : cs₂.length < cs.length := by
          have h₁ := skipSpace_length cs
          have h₂ := takeString_length hs
          have h₃ := skipSpace_length afterKey
          simp only [h, hc, List.length_cons] at h₁ h₃
          omega
        let (value, after) := takeValue cs₂
        have hle : (skipSpace after.1).length ≤ cs₂.length :=
          Nat.le_trans (skipSpace_length after.1) after.2
        match hv : skipSpace after.1 with
        | ',' :: next =>
          have hlt' : next.length < cs.length := by simp only [hv, List.length_cons] at hle; omega
          let (members, rest) := takeMembers next
          ((textOf? ns, value) :: members, ⟨rest.1, by have := rest.2; omega⟩)
        | '\x7d' :: rest =>
          ([(textOf? ns, value)], ⟨rest, by simp only [hv, List.length_cons] at hle; omega⟩)
        | _ => ([(textOf? ns, value), (none, .broken)], Rest.none cs)
      | _ => ([(textOf? ns, .broken)], Rest.none cs)
    | none => ([(none, .broken)], Rest.none cs)
  | _ => ([(none, .broken)], Rest.none cs)
termination_by (cs.length, 1)

end

/-- A text as a document: its tree, and whether only white space follows it. -/
structure Text where
  root : Document
  ends : Bool

/-- The document of a text. -/
def ofText (s : String) : Text :=
  let (root, rest) := takeValue s.toList
  { root, ends := skipSpace rest.1 = [] }

/-! ## Skipping and reading -/

mutual

/-- Nothing in the tree is broken. -/
def intact : Document → Bool
  | .broken => false
  | .array items => intactItems items
  | .object members => intactMembers members
  | _ => true

/-- Nothing in any of the trees is broken. -/
def intactItems : List Document → Bool
  | [] => true
  | d :: rest => d.intact && intactItems rest

/-- Nothing in any of the members is broken. -/
def intactMembers : List (Option String × Document) → Bool
  | [] => true
  | (_, d) :: rest => d.intact && intactMembers rest

end

mutual

/-- The value of a tree without any problem and with at most `room` levels of nesting. -/
def toJson? (room : Nat) : Document → Option Json
  | .null => some .null
  | .bool b => some (.bool b)
  | .number n => some (.number n)
  | .string s => some (.string s)
  | .unreadable => none
  | .broken => none
  | .array items => match room with
    | 0 => none
    | room + 1 => (toJsonItems? room items).map .array
  | .object members => match room with
    | 0 => none
    | room + 1 => (toJsonMembers? room members).map Json.sorted

/-- The values of trees. -/
def toJsonItems? (room : Nat) : List Document → Option (List Json)
  | [] => some []
  | d :: rest => do
    let v ← d.toJson? room
    let vs ← toJsonItems? room rest
    return v :: vs

/-- The values of members. -/
def toJsonMembers? (room : Nat) : List (Option String × Document) → Option (List (String × Json))
  | [] => some []
  | (none, _) :: _ => none
  | (some key, d) :: rest => do
    let v ← d.toJson? room
    let vs ← toJsonMembers? room rest
    return (key, v) :: vs

end

mutual

/-- The document of a value. -/
def ofJson : Json → Document
  | .null => .null
  | .bool b => .bool b
  | .number n => .number n
  | .string s => .string s
  | .array items => .array (ofJsonItems items)
  | .object members => .object (ofJsonMembers members)

/-- The documents of items. -/
def ofJsonItems : List Json → List Document
  | [] => []
  | v :: rest => ofJson v :: ofJsonItems rest

/-- The documents of members. -/
def ofJsonMembers : List (String × Json) → List (Option String × Document)
  | [] => []
  | (k, v) :: rest => (some k, ofJson v) :: ofJsonMembers rest

end

/-- The deepest nesting of a text that is read as a whole. -/
def deepest : Nat := 127

end Document

/-- The value of a JSON text. -/
def Json.parse? (s : String) : Option Json :=
  let text := Document.ofText s
  if text.ends then text.root.toJson? Document.deepest else none

end Targeting
