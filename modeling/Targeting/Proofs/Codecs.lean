import Targeting.Proofs.Printed
import Targeting.Proofs.Records

/-!
# Records written and read back

How values of a kind are read and how they are written goes together, with the law that what is written is
read back. Lists of such values and records of them have this law too: a record is put together from its
entries, each of which is a part with what is written for it.

* `Codec`, `Codec.string`, `Codec.choice`, `Codec.list`, …: kinds of values that are read back;
* `Entry`, `Entry.ofCodec`, `Entry.ifAny`: the entries of a record, `Entry.members`: its members;
* **`Codec.ofEntries`**: records that are read back.
-/

namespace Targeting

/-! ## Codecs -/

/-- How values of a kind are read, and how they are written. -/
structure Codec (α : Type) where
  read : Read α
  write : α → Json
  read_write : ∀ a, read.ofJson (write a) = .ok a
  whole : ∀ a, (write a).Whole

namespace Codec

variable {α : Type}

/-- Texts. -/
def string : Codec String where
  read := Read.string
  write := .string
  read_write _ := rfl
  whole _ := trivial

/-- Truth values. -/
def bool : Codec Bool where
  read := Read.bool
  write := .bool
  read_write _ := rfl
  whole _ := trivial

/-- Choices by name. -/
def choice (byName : List (String × α)) (name : α → String) (h : ∀ a, byName.lookup (name a) = some a) :
    Codec α where
  read := Read.choice .text byName
  write a := .string (name a)
  read_write a := Read.variant_eq_ok_iff.mpr (h a)
  whole _ := trivial

/-- Lists of values. -/
def list (c : Codec α) : Codec (List α) where
  read := Read.list c.read
  write as := .array (as.map c.write)
  read_write as := by
    have hitems : (Document.ofJsonItems (as.map c.write)).mapM c.read = Except.ok as := by
      induction as with
      | nil => rfl
      | cons a as ih =>
        have ha : c.read (Document.ofJson (c.write a)) = .ok a := c.read_write a
        rw [List.map_cons, Document.ofJsonItems, List.mapM_cons, ha, ih]
        rfl
    exact hitems
  whole as := by
    show Json.WholeItems (as.map c.write)
    induction as with
    | nil => trivial
    | cons a as ih => exact ⟨c.whole a, ih⟩

end Codec

/-! ## Entries -/

/-- An entry of a record that is read over a blank one: a part, and what is written for it, if anything is.
What is left out is what the blank record holds. -/
structure Entry {σ : Type} (blank : σ) where
  part : Part σ
  write : σ → Option Json
  filled : ∀ s, part.Filled (write s) blank s
  whole : ∀ s, ∀ v ∈ write s, v.Whole

namespace Entry

variable {σ α : Type} {blank : σ} (name : String) (c : Codec α)

/-- The entry for a value of a kind. -/
def ofCodec (get : σ → α) (set : α → σ → σ) (h : ∀ x s, get (set x s) = x) : Entry blank where
  part := .reading name c.read get set h
  write s := some (c.write (get s))
  filled s := c.read_write (get s)
  whole s := by
    rintro _ ⟨⟩
    exact c.whole (get s)

/-- The entry for a value of a kind that may be missing. -/
def ifAny (hnull : ∀ a, c.write a ≠ .null) (get : σ → Option α) (set : Option α → σ → σ)
    (h : ∀ x s, get (set x s) = x) (hblank : get blank = none) : Entry blank where
  part := (Part.reading name (Read.optional c.read) get set h).orAbsent
  write s := (get s).map c.write
  filled s := by
    cases hvalue : get s with
    | none => exact ⟨rfl, hvalue.trans hblank.symm⟩
    | some a =>
      have hsome : (Read.optional c.read).ofJson (c.write a) = .ok (some a) :=
        Read.optional_eq_ok_iff.mpr (Or.inr ⟨a, rfl, hnull a, c.read_write a⟩)
      exact hsome.trans (congrArg Except.ok hvalue.symm)
  whole s v hv := by
    obtain ⟨a, _, rfl⟩ := Option.map_eq_some_iff.mp hv
    exact c.whole a

/-- The same entry for a value that may be left out of what is read. -/
def orAbsent (e : Entry blank) : Entry blank where
  part := e.part.orAbsent
  write := e.write
  filled s := by
    have hfilled := e.filled s
    cases hwrite : e.write s with
    | some v =>
      rw [hwrite] at hfilled
      exact hfilled
    | none =>
      rw [hwrite] at hfilled
      exact ⟨rfl, hfilled.2⟩
  whole := e.whole

/-- The members that are written for entries. -/
def members (es : List (Entry blank)) (s : σ) : List (String × Json) :=
  Part.written (es.map fun e => (e.part, e.write s))

theorem whole_members (es : List (Entry blank)) (s : σ) : Json.WholeMembers (members es s) := by
  refine Json.wholeMembers_iff.mpr fun m hm => ?_
  obtain ⟨_, hw, hm⟩ := List.mem_filterMap.mp hm
  obtain ⟨e, _, rfl⟩ := List.mem_map.mp hw
  obtain ⟨v, hv, rfl⟩ := Option.map_eq_some_iff.mp hm
  exact e.whole s v hv

end Entry

/-- **A record of entries is read back** from their members, if none of these is called by another name. -/
theorem Record.readObject_members {σ : Type} {r : Record σ} {es : List (Entry r.blank)}
    (hmade : r.plain.Made (es.map Entry.part))
    (hnames : ∀ key ∈ es.map fun e => e.part.name, key ∉ r.members.flatMap Member.otherNames) (s : σ) :
    r.readObject (Document.ofJsonMembers (Entry.members es s)) = .ok s := by
  have hparts : (es.map fun e => (e.part, e.write s)).map Prod.fst = es.map Entry.part := List.map_map
  refine (readObject_plain fun key hkey => ?_).mp
    (Made.readObject_written (hparts ▸ hmade) (List.forall_mem_map.mpr fun e _ => e.filled s))
  have hwritten := Part.mem_keys_written hkey
  rw [List.map_map] at hwritten
  exact hnames key hwritten

/-- **Records of entries are read back.** -/
def Codec.ofEntries {σ : Type} {r : Record σ} {es : List (Entry r.blank)}
    (hmade : r.plain.Made (es.map Entry.part))
    (hnames : ∀ key ∈ es.map fun e => e.part.name, key ∉ r.members.flatMap Member.otherNames)
    (write : σ → Json) (hwrite : ∀ s, write s = .object (Entry.members es s)) : Codec σ where
  read := r.read .text
  write
  read_write s := by
    rw [hwrite]
    exact Record.readObject_members hmade hnames s
  whole s := by
    rw [hwrite]
    exact Entry.whole_members es s

end Targeting
