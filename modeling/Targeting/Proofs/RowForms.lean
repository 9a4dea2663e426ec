import Targeting.Proofs.CountCells
import Targeting.Proofs.Merging

/-!
# Forms of rows

A value of a row is found by the name of its column, as a member of the row as an object, or in the text of
the row. By name the first column counts, whatever its ASCII case; in the object the last one of exactly this
name; in the text all columns stand in order. So the first two say the same of a name exactly if both columns
have the same value in JSON. The text has the members of the object, and is read back as the object unless a
value is nested too deeply or the reader takes a double for a neighbour.

* `Json.Faithful`: values all of whose numbers are read back from their texts; `Json.ReadsBack`,
  **`Json.toJson?_reread_iff`**: values that are read back;
* `Row.LastNamed`, `Row.get?_toJson_eq_some_iff`: what is found in a row as an object;
  `Row.eq_of_count_eq_one`: there is one value if there is one column;
* `Json.Collects`, `Row.collects_iff`: the object that holds the members of the text;
  **`Row.parse?_text_of_readsBack`**, **`Row.parse?_text_iff`**: the text read back;
* `Row.Forms`, **`Row.forms`**.
-/

namespace Targeting

/-! ## Values read back -/

namespace Json

mutual

/-- Every number of a value is read back from its own text. -/
def Faithful : Json → Prop
  | .number n => n.reread = .number n
  | .array items => FaithfulItems items
  | .object members => FaithfulMembers members
  | _ => True

/-- Every number of items is read back. -/
def FaithfulItems : List Json → Prop
  | [] => True
  | v :: rest => v.Faithful ∧ FaithfulItems rest

/-- Every number of members is read back. -/
def FaithfulMembers : List (String × Json) → Prop
  | [] => True
  | (_, v) :: rest => v.Faithful ∧ FaithfulMembers rest

end

/-- A value is read back from its text with so many levels of nesting: its keys are sorted, it is not nested
more deeply, and its numbers are read back. -/
def ReadsBack (room : Nat) (v : Json) : Prop := v.Ordered ∧ v.depth ≤ room ∧ v.Faithful

/-- Members are read one by one. -/
theorem toJsonMembers?_rereadMembers {room : Nat} {ms ms' : List (String × Json)} :
    Document.toJsonMembers? room (rereadMembers ms) = some ms' ↔
      List.Forall₂ (fun m m' => m'.1 = m.1 ∧ m.2.reread.toJson? room = some m'.2) ms ms' := by
  induction ms generalizing ms' with
  | nil => simp [rereadMembers, Document.toJsonMembers?, eq_comm]
  | cons m rest ih =>
    obtain ⟨key, v⟩ := m
    simp only [rereadMembers, Document.toJsonMembers?, Option.bind_eq_bind, Option.bind_eq_some_iff,
      Option.pure_def, Option.some.injEq, List.forall₂_cons_left_iff, ih]
    constructor
    · rintro ⟨w, hw, ws, hws, rfl⟩
      exact ⟨(key, w), ws, ⟨rfl, hw⟩, hws, rfl⟩
    · rintro ⟨⟨key', w⟩, ws, ⟨hkey, hw⟩, hws, rfl⟩
      cases hkey
      exact ⟨w, hw, ws, hws, rfl⟩

/-- Members keep their keys when they are read. -/
theorem map_fst_of_toJsonMembers? {room : Nat} {ms ms' : List (String × Json)}
    (h : Document.toJsonMembers? room (rereadMembers ms) = some ms') :
    ms'.map Prod.fst = ms.map Prod.fst := by
  have hkeys := (toJsonMembers?_rereadMembers.mp h).imp fun m m' hm => hm.1.symm
  have hall := List.forall₂_map_left_iff.mpr (List.forall₂_map_right_iff.mpr hkeys)
  rw [List.forall₂_eq_eq_eq] at hall
  exact hall.symm

theorem toJsonMembers?_rereadMembers_self {room : Nat} {ms : List (String × Json)} :
    Document.toJsonMembers? room (rereadMembers ms) = some ms ↔
      ∀ m ∈ ms, m.2.reread.toJson? room = some m.2 := by
  rw [toJsonMembers?_rereadMembers, List.forall₂_same]
  simp

/-- What is read of members as an object is the object exactly if its keys are sorted and each member is read
back. -/
theorem map_sorted_toJsonMembers?_iff {room : Nat} {ms : List (String × Json)} :
    (Document.toJsonMembers? room (rereadMembers ms)).map sorted = some (.object ms) ↔
      Keyed.Sorted ms ∧ ∀ m ∈ ms, m.2.reread.toJson? room = some m.2 := by
  rw [Option.map_eq_some_iff, ← toJsonMembers?_rereadMembers_self]
  constructor
  · rintro ⟨ms', h, hsorted⟩
    have hms : Keyed.ofList ms' = ms := by
      rw [sorted] at hsorted
      exact Json.object.inj hsorted
    have hkeys : Keyed.Sorted ms := hms ▸ Keyed.sorted_ofList ms'
    -- Each member keeps its key, so what is read is sorted as well.
    have hsame := map_fst_of_toJsonMembers? h
    have hsorted' : Keyed.Sorted ms' := by
      rw [Keyed.Sorted, ← List.pairwise_map (f := Prod.fst) (R := (· < ·))] at hkeys ⊢
      exact hsame ▸ hkeys
    rw [Keyed.ofList_eq_self hsorted'] at hms
    exact ⟨hkeys, hms ▸ h⟩
  · rintro ⟨hsorted, h⟩
    exact ⟨ms, h, by rw [sorted, Keyed.ofList_eq_self hsorted]⟩

theorem Number.toJson?_reread_iff {n : Number} {room : Nat} :
    n.reread.toJson? room = some (.number n) ↔ n.reread = .number n := by
  obtain ⟨x, hx⟩ := n.exists_take
  have htake := hx [] nofun
  rw [List.append_nil] at htake
  rw [reread_eq_of_take htake]
  cases x.number? <;> simp [Document.toJson?]

mutual

/-- **What is read of a value is the value** exactly if it is one that is read back. -/
theorem toJson?_reread_iff {v : Json} {room : Nat} :
    v.reread.toJson? room = some v ↔ v.ReadsBack room := by
  cases v with
  | number n =>
    refine Number.toJson?_reread_iff.trans ?_
    simp [ReadsBack, Ordered, depth, Faithful]
  | array items =>
    cases room with
    | zero => exact iff_of_false nofun fun h => nomatch h.2.1
    | succ room =>
      rw [reread, Document.toJson?, Option.map_eq_some_iff]
      simp only [Json.array.injEq, exists_eq_right]
      rw [toJsonItems?_rereadItems_iff, ReadsBack, Ordered, depth, Faithful, Nat.succ_le_succ_iff]
  | object members =>
    cases room with
    | zero => exact iff_of_false nofun fun h => nomatch h.2.1
    | succ room =>
      rw [reread, Document.toJson?]
      refine map_sorted_toJsonMembers?_iff.trans ?_
      rw [forall_toJson?_reread_iff, ReadsBack, Ordered, depth, Faithful, Nat.succ_le_succ_iff, and_assoc]
  | _ => exact iff_of_true rfl ⟨trivial, Nat.zero_le _, trivial⟩

theorem toJsonItems?_rereadItems_iff {items : List Json} {room : Nat} :
    Document.toJsonItems? room (rereadItems items) = some items ↔
      OrderedItems items ∧ depthItems items ≤ room ∧ FaithfulItems items := by
  cases items with
  | nil => exact iff_of_true rfl ⟨trivial, Nat.zero_le _, trivial⟩
  | cons v rest =>
    have hsplit : Document.toJsonItems? room (rereadItems (v :: rest)) = some (v :: rest) ↔
        v.reread.toJson? room = some v ∧ Document.toJsonItems? room (rereadItems rest) = some rest := by
      simp [rereadItems, Document.toJsonItems?, Option.bind_eq_some_iff]
    rw [hsplit, toJson?_reread_iff, ReadsBack, toJsonItems?_rereadItems_iff, OrderedItems, depthItems,
      FaithfulItems, Nat.max_le]
    tauto

theorem forall_toJson?_reread_iff {ms : List (String × Json)} {room : Nat} :
    (∀ m ∈ ms, m.2.reread.toJson? room = some m.2) ↔
      OrderedMembers ms ∧ depthMembers ms ≤ room ∧ FaithfulMembers ms := by
  cases ms with
  | nil => exact iff_of_true (List.forall_mem_nil _) ⟨trivial, Nat.zero_le _, trivial⟩
  | cons m rest =>
    obtain ⟨key, v⟩ := m
    rw [List.forall_mem_cons, toJson?_reread_iff, ReadsBack, forall_toJson?_reread_iff, OrderedMembers,
      depthMembers, FaithfulMembers, Nat.max_le]
    tauto

end

/-- An object holds members as they are written: each key once, in order, with its last value. -/
def Collects (members : List (String × Json)) (v : Json) : Prop :=
  ∃ ms, v = .object ms ∧ Keyed.Sorted ms ∧ ∀ key, ms.lookup key = members.reverse.lookup key

theorem collects_iff {members : List (String × Json)} {v : Json} :
    Collects members v ↔ v = sorted members := by
  constructor
  · rintro ⟨ms, rfl, hsorted, hlookup⟩
    refine congrArg Json.object (hsorted.ext (Keyed.sorted_ofList members) fun key => ?_)
    rw [hlookup, Keyed.lookup_ofList]
  · rintro rfl
    exact ⟨_, rfl, Keyed.sorted_ofList members, Keyed.lookup_ofList members⟩

end Json

/-! ## Rows -/

namespace Row

variable {r : Row}

/-- The value of the last column of a row with exactly this name. -/
def LastNamed (r : Row) (column : String) (v : Value) : Prop :=
  ∃ before after, r.cells = before ++ (column, v) :: after ∧ ∀ c ∈ after, c.1 ≠ column

/-- **In a row as an object the last column of a name is found.** -/
theorem get?_toJson_eq_some_iff {column : String} {w : Json} :
    r.toJson.get? column = some w ↔ ∃ v, r.LastNamed column v ∧ w = v.toJson := by
  have hmember := r.member?_eq column
  rw [member?] at hmember
  rw [hmember, Option.map_eq_some_iff]
  constructor
  · rintro ⟨⟨name, v⟩, hfind, rfl⟩
    obtain ⟨hname, after, before, hcells, hafter⟩ := List.find?_eq_some_iff_append.mp hfind
    obtain rfl : name = column := by simpa using hname
    refine ⟨v, ⟨before.reverse, after.reverse, ?_, by simpa using hafter⟩, rfl⟩
    rw [← List.reverse_reverse r.cells, hcells]
    simp
  · rintro ⟨v, ⟨before, after, hcells, hafter⟩, rfl⟩
    refine ⟨(column, v), List.find?_eq_some_iff_append.mpr
      ⟨by simp, after.reverse, before.reverse, ?_, by simpa using hafter⟩, rfl⟩
    rw [hcells]
    simp

theorem exists_firstNamed {column : String} (h : column ∈ r.columns) : ∃ v, r.FirstNamed column v := by
  obtain ⟨c, hc, rfl⟩ := List.mem_map.mp h
  have hfound : (r.cells.find? fun d => Text.lowerAscii d.1 = Text.lowerAscii c.1).isSome :=
    List.find?_isSome.mpr ⟨c, hc, by simp⟩
  obtain ⟨d, hd⟩ := Option.isSome_iff_exists.mp hfound
  exact ⟨d.2, value?_eq_some_iff.mp (by rw [value?_eq, hd, Option.map_some])⟩

theorem exists_lastNamed {column : String} (h : column ∈ r.columns) : ∃ v, r.LastNamed column v := by
  obtain ⟨c, hc, rfl⟩ := List.mem_map.mp h
  have hfound : (r.cells.reverse.find? fun d => d.1 = c.1).isSome :=
    List.find?_isSome.mpr ⟨c, List.mem_reverse.mpr hc, by simp⟩
  obtain ⟨d, hd⟩ := Option.isSome_iff_exists.mp hfound
  have hmember : r.toJson.get? c.1 = some d.2.toJson := by
    change r.member? c.1 = _
    rw [member?_eq, hd, Option.map_some]
  obtain ⟨v, hv, _⟩ := get?_toJson_eq_some_iff.mp hmember
  exact ⟨v, hv⟩

/-- A column whose name no other one has, in any ASCII case, is both the first and the last one. -/
theorem eq_of_count_eq_one {column : String} {v w : Value} (hv : r.FirstNamed column v)
    (hw : r.LastNamed column w)
    (h : (r.columns.map Text.lowerAscii).count (Text.lowerAscii column) = 1) : v = w := by
  obtain ⟨name, before, after, hcells, hname, hbefore⟩ := hv
  obtain ⟨before', after', hcells', _⟩ := hw
  have hmem : (column, w) ∈ before ++ (name, v) :: after := by
    rw [← hcells, hcells']
    exact List.mem_append_right _ List.mem_cons_self
  have hafter : Text.lowerAscii column ∉ (after.map Prod.fst).map Text.lowerAscii := by
    rw [columns, hcells, List.map_append, List.map_cons, List.map_append, List.map_cons, List.count_append,
      List.count_cons, hname, if_pos (beq_self_eq_true _)] at h
    exact List.count_eq_zero.mp (by omega)
  rcases List.mem_append.mp hmem with hmem | hmem
  · exact absurd rfl (hbefore _ hmem)
  rcases List.mem_cons.mp hmem with heq | hmem
  · exact (congrArg Prod.snd heq).symm
  · exact absurd (List.mem_map_of_mem (List.mem_map_of_mem hmem)) hafter

/-! ### Texts -/

/-- The members that the text of a row has, in order. -/
def entries (r : Row) : List (String × Json) := r.cells.map fun (c, v) => (c, v.toJson)

theorem toJson_eq_sorted (r : Row) : r.toJson = Json.sorted r.entries := rfl

theorem text_eq_compact (r : Row) : r.text = (Json.object r.entries).compact := rfl

theorem map_fst_entries (r : Row) : r.entries.map Prod.fst = r.columns := by
  simp [entries, columns, Function.comp_def]

/-- What is read of the text of a row. -/
theorem parse?_text (r : Row) : Json.parse? r.text =
    (Document.toJsonMembers? (Document.deepest - 1) (Json.rereadMembers r.entries)).map Json.sorted := by
  rw [Json.parse?, text_eq_compact, Json.compact, ← Json.Layout.chars_compact 0, Document.ofText_layout]
  rfl

/-- The values of a row are read back from its text, in which they are one level down. -/
def ReadsBack (r : Row) : Prop := ∀ m ∈ r.entries, m.2.ReadsBack (Document.deepest - 1)

/-- **The text of a row is read back as the object** if its values are read back. -/
theorem parse?_text_of_readsBack (h : r.ReadsBack) : Json.parse? r.text = some r.toJson := by
  have hmembers := Json.toJsonMembers?_rereadMembers_self.mpr fun m hm =>
    Json.toJson?_reread_iff.mpr (h m hm)
  rw [parse?_text, hmembers, Option.map_some, toJson_eq_sorted]

/-- **Columns of different names** are read back as the object only if their values are read back. -/
theorem parse?_text_iff (hcolumns : r.columns.Nodup) :
    Json.parse? r.text = some r.toJson ↔ r.ReadsBack := by
  refine ⟨fun h m hm => ?_, parse?_text_of_readsBack⟩
  rw [parse?_text, Option.map_eq_some_iff] at h
  obtain ⟨ms, hms, hsorted⟩ := h
  have hkeys := Json.map_fst_of_toJsonMembers? hms
  have hnodup : (r.entries.map Prod.fst).Nodup := r.map_fst_entries ▸ hcolumns
  -- Different names are all kept in the object, so nothing else can have been read.
  have hmem : ∀ m' ∈ ms, m' ∈ r.entries := fun m' hm' => by
    have hobject : Keyed.ofList ms = Keyed.ofList r.entries := Json.object.inj hsorted
    rwa [← Keyed.mem_ofList_iff hnodup, ← hobject, Keyed.mem_ofList_iff (hkeys ▸ hnodup)]
  obtain ⟨i, hi, rfl⟩ := List.getElem_of_mem hm
  have hall := Json.toJsonMembers?_rereadMembers.mp hms
  have hi' : i < ms.length := hall.length_eq ▸ hi
  obtain ⟨hkey, hread⟩ := hall.get hi hi'
  have hlookup := (Keyed.mem_iff_lookup hnodup).mp (hmem _ (List.get_mem ms ⟨i, hi'⟩))
  rw [hkey] at hlookup
  have hsame := Option.some.inj (hlookup.symm.trans ((Keyed.mem_iff_lookup hnodup).mp hm))
  rw [hsame] at hread
  exact Json.toJson?_reread_iff.mp hread

/-! ### All forms -/

/-- How the forms of a row agree. -/
structure Forms (r : Row) : Prop where
  /-- By the name of a column the first one in any ASCII case is found, and in the object the last one of
  exactly this name. They are the same in JSON exactly if the values of both columns are. -/
  found : ∀ column ∈ r.columns, ∃ first last, r.FirstNamed column first ∧ r.LastNamed column last ∧
    r.value? column = some first ∧ r.toJson.get? column = some last.toJson ∧
      (r.toJson.get? column = (r.value? column).map Value.toJson ↔ last.toJson = first.toJson)
  /-- They are the same if no other column has this name in any ASCII case. -/
  alone : ∀ column ∈ r.columns, (r.columns.map Text.lowerAscii).count (Text.lowerAscii column) = 1 →
    r.toJson.get? column = (r.value? column).map Value.toJson
  /-- The text is written member by member, and the object is what holds these members. -/
  written : r.text = (Json.object r.entries).compact ∧ ∀ v, Json.Collects r.entries v ↔ v = r.toJson
  /-- The text is read back as the object if the values are read back, -/
  read : r.ReadsBack → Json.parse? r.text = some r.toJson
  /-- and only then if the columns have different names. -/
  read_iff : r.columns.Nodup → (Json.parse? r.text = some r.toJson ↔ r.ReadsBack)

/-- **How the forms of a row agree**, whatever its columns and its values are. -/
theorem forms (r : Row) : r.Forms where
  found := fun column hcolumn => by
    obtain ⟨first, hfirst⟩ := exists_firstNamed hcolumn
    obtain ⟨last, hlast⟩ := exists_lastNamed hcolumn
    have hvalue := value?_eq_some_iff.mpr hfirst
    have hmember := get?_toJson_eq_some_iff.mpr ⟨last, hlast, rfl⟩
    refine ⟨first, last, hfirst, hlast, hvalue, hmember, ?_⟩
    rw [hvalue, hmember, Option.map_some, Option.some.injEq]
  alone := fun column hcolumn hcount => by
    obtain ⟨first, hfirst⟩ := exists_firstNamed hcolumn
    obtain ⟨last, hlast⟩ := exists_lastNamed hcolumn
    rw [value?_eq_some_iff.mpr hfirst, get?_toJson_eq_some_iff.mpr ⟨last, hlast, rfl⟩,
      eq_of_count_eq_one hfirst hlast hcount]
    rfl
  written := ⟨r.text_eq_compact, fun _ => Json.collects_iff⟩
  read := parse?_text_of_readsBack
  read_iff := parse?_text_iff

/-- A double as a value, by its rank. -/
def double (rank : Fin Binary64.rankCount) : Value := .float (.finite ⟨false, rank⟩)

/-- Columns of one name in two cases, with a list in one of them. -/
def threefold : Row :=
  ⟨[("a", .int 1), ("A", .list [double ⟨4602678819172646912, by decide⟩, .null]), ("a", .string "x")]⟩

/-- By either name the first of three columns is found, the object has one member for each name, and the text is
read back. -/
theorem threefold_forms : threefold.ReadsBack ∧ threefold.value? "A" = some (.int 1) ∧
    threefold.toJson.get? "a" = some (.string "x") ∧
      Json.parse? threefold.text = some threefold.toJson := by
  have hhalf : (Json.Number.float ⟨false, 4602678819172646912, by decide⟩).reread =
      .number (.float ⟨false, 4602678819172646912, by decide⟩) :=
    Json.Number.reread_eq_iff.mpr
      ⟨{ negative := false, whole := ['0'], fraction := ['5'], exponent := none }, by decide +kernel,
        by decide +kernel⟩
  have hread : threefold.ReadsBack :=
    List.forall_mem_cons.mpr ⟨⟨trivial, Nat.zero_le _, Json.Number.reread_integer _⟩,
      List.forall_mem_cons.mpr ⟨⟨⟨trivial, trivial, trivial⟩, by decide, hhalf, trivial, trivial⟩,
        List.forall_mem_singleton.mpr ⟨trivial, Nat.zero_le _, trivial⟩⟩⟩
  exact ⟨hread, rfl, rfl, (forms threefold).read hread⟩

/-- One name twice. -/
def repeated : Row := ⟨[("a", .null), ("a", .string "x")]⟩

/-- One name in two cases. -/
def variant : Row := ⟨[("A", .null), ("a", .string "x")]⟩

/-- The double `1e-23`, which the reader takes for its neighbour. -/
def unsteady : Row := ⟨[("a", double ⟨4262707295203537489, by decide⟩)]⟩

/-- Lists in lists, one more than are read inside an object. -/
def deep : Row := ⟨[("a", Nat.repeat (fun v => .list [v]) 127 .null)]⟩

/-- Under the name of a repeated column the object has another value than is found by name, and so it has where
names differ in case; and not every text is read back. -/
theorem forms_differ :
    repeated.toJson.get? "a" ≠ (repeated.value? "a").map Value.toJson ∧
      variant.toJson.get? "a" ≠ (variant.value? "a").map Value.toJson ∧
      Json.parse? unsteady.text ≠ some unsteady.toJson ∧ Json.parse? deep.text ≠ some deep.toJson := by
  refine ⟨nofun, nofun, fun h => ?_, fun h => ?_⟩
  · have hread := ((parse?_text_iff (by decide)).mp h _ List.mem_cons_self).2.2
    obtain ⟨x, hx, hnumber⟩ := Json.Number.reread_eq_iff.mp hread
    have htake : Json.Numeral.take (Json.Number.float ⟨false, 4262707295203537489, by decide⟩).chars =
        some ({ negative := false, whole := ['1'], fraction := [], exponent := some (-23) }, []) := by
      decide +kernel
    obtain rfl := (Prod.mk.inj (Option.some.inj (hx.symm.trans htake))).1
    exact absurd hnumber (by decide +kernel)
  · have hdepth := ((parse?_text_iff (by decide)).mp h _ List.mem_cons_self).2.1
    exact absurd hdepth (by decide +kernel)

end Row

end Targeting
