import Targeting.Proofs.Specification

/-!
# Saved filters

Filters are saved as an object with both lists, in which every filter is an object with its parts; a connector
is left out where there is none. An object has no order, so its members may come in any. Read as a
specification, saved filters are what they were before; and a specification that was once read and saved
does not change any more.

* `Filter.members`, `Filter.SavedAs`, `FilterSet.SavedAs`: filters as they are saved;
* `Filter.jsonForm_of_savedAs`: a saved filter is one way to write the filter;
* `FilterSet.savedAs_toJson`, `FilterSet.savedAs_toSortedJson`: saved in the order of their declaration, or
  with sorted keys;
* **`FilterSet.ofJson_saved`**: saved filters are read back.
-/

namespace Targeting

/-! ## Members in any order -/

namespace Keyed

variable {α : Type}

/-- The order of members that have keys of their own makes no difference to what is found among them. -/
theorem lookup_of_perm {as bs : List (String × α)} (h : as.Perm bs) (hbs : (bs.map Prod.fst).Nodup)
    (key : String) : as.lookup key = bs.lookup key := by
  have has : (as.map Prod.fst).Nodup := (h.map Prod.fst).nodup_iff.mpr hbs
  ext a
  rw [← mem_iff_lookup has, ← mem_iff_lookup hbs, h.mem_iff]

/-- Members that have keys of their own are only reordered when they are sorted. -/
theorem perm_ofList {pairs : List (String × α)} (h : (pairs.map Prod.fst).Nodup) :
    (ofList pairs).Perm pairs := by
  have hsorted : (ofList pairs).Nodup := (sorted_ofList pairs).nodup.of_map
  refine (List.perm_ext_iff_of_nodup hsorted h.of_map).mpr fun p => ?_
  exact mem_ofList_iff h

end Keyed

/-! ## One filter -/

namespace Filter

variable {f : Filter}

/-- The members that are written for a filter. -/
def members (f : Filter) : List (String × Json) :=
  [("field", .string f.field), ("operator", .string f.operator), ("value", f.operand.toJson)] ++
    match f.connector with
    | some c => [("logicalOperator", .string c.keyword)]
    | none => []

theorem toJson_eq (f : Filter) : f.toJson = .object f.members := rfl

theorem nodup_members (f : Filter) : (f.members.map Prod.fst).Nodup := by
  cases h : f.connector <;> simp [members, h]

/-- A filter is saved as an object of its members. -/
def SavedAs (f : Filter) (v : Json) : Prop := ∃ ms : List (String × Json), v = .object ms ∧ ms.Perm f.members

theorem savedAs_toJson (f : Filter) : f.SavedAs f.toJson := ⟨f.members, f.toJson_eq, .refl _⟩

theorem savedAs_sorted (f : Filter) : f.SavedAs (.sorted f.members) :=
  ⟨Keyed.ofList f.members, rfl, Keyed.perm_ofList f.nodup_members⟩

/-- A connector is saved by a name under which it is read, and as nothing if there is none. -/
theorem connector_members (f : Filter) :
    Connector.JsonForm ((f.members.lookup "logicalOperator").getD .null) f.connector := by
  cases h : f.connector with
  | none =>
    have hlookup : f.members.lookup "logicalOperator" = none := by simp [members, h, Keyed.lookup_cons_eq]
    rw [hlookup]
    exact .nothing
  | some c =>
    have hlookup : f.members.lookup "logicalOperator" = some (.string c.keyword) := by
      simp [members, h, Keyed.lookup_cons_eq]
    rw [hlookup]
    exact .name (by cases c <;> rfl)

/-- **A saved filter** is written as that filter. -/
theorem jsonForm_of_savedAs {v : Json} (h : f.SavedAs v) : JsonForm v f := by
  obtain ⟨ms, rfl, hperm⟩ := h
  have hnodup : (ms.map Prod.fst).Nodup := (hperm.map Prod.fst).nodup_iff.mpr f.nodup_members
  have hlookup := Keyed.lookup_of_perm hperm f.nodup_members
  refine .object (fun key _ => List.nodup_iff_count_le_one.mp hnodup key) ?_ ?_ ?_ ?_
  · rw [hlookup]
    rfl
  · rw [hlookup]
    rfl
  · rw [hlookup]
    rfl
  · rw [hlookup]
    exact f.connector_members

end Filter

/-! ## Both lists -/

namespace FilterSet

variable {s : FilterSet}

/-- Filters are saved as an object of two lists in which each filter is saved in its place. -/
inductive SavedAs (s : FilterSet) : Json → Prop
  | object {ms : List (String × Json)} {company contact : List Json}
      (members : ms.Perm [("companyFilters", .array company), ("contactFilters", .array contact)])
      (ofCompany : List.Forall₂ Filter.SavedAs s.company company)
      (ofContact : List.Forall₂ Filter.SavedAs s.contact contact) : SavedAs s (.object ms)

/-- Filters as a value with sorted keys. -/
def toSortedJson (s : FilterSet) : Json :=
  .sorted [("companyFilters", .array (s.company.map fun f => .sorted f.members)),
    ("contactFilters", .array (s.contact.map fun f => .sorted f.members))]

theorem forall₂_savedAs_map {write : Filter → Json} (h : ∀ f : Filter, f.SavedAs (write f))
    (fs : List Filter) : List.Forall₂ Filter.SavedAs fs (fs.map write) :=
  List.forall₂_map_right_iff.mpr (List.forall₂_same.mpr fun f _ => h f)

theorem savedAs_toJson (s : FilterSet) : s.SavedAs s.toJson :=
  .object (.refl _) (forall₂_savedAs_map Filter.savedAs_toJson s.company)
    (forall₂_savedAs_map Filter.savedAs_toJson s.contact)

theorem savedAs_toSortedJson (s : FilterSet) : s.SavedAs s.toSortedJson :=
  .object (Keyed.perm_ofList (by simp)) (forall₂_savedAs_map Filter.savedAs_sorted s.company)
    (forall₂_savedAs_map Filter.savedAs_sorted s.contact)

/-- A saved list of filters is given as that list. -/
theorem listed_of_savedAs {fs : List Filter} {items : List Json} (h : List.Forall₂ Filter.SavedAs fs items) :
    Listed (some (.array items)) fs :=
  .array (h.imp fun _ _ => Filter.jsonForm_of_savedAs).flip

theorem ofJson_of_savedAs {v : Json} (h : s.SavedAs v) : ofJson v = .ok s := by
  cases h with
  | object hms hcompany hcontact =>
    have hlookup := Keyed.lookup_of_perm hms (by simp)
    rw [ofJson_object_eq_ok_iff, hlookup, hlookup]
    exact ⟨listed_of_savedAs hcompany, listed_of_savedAs hcontact⟩

/-- **Saved filters are read back**, in whatever order their members are saved. What reading makes of any
specification, it makes of it again when that has been saved, so a second time nothing changes. -/
theorem ofJson_saved :
    (∀ s : FilterSet, s.SavedAs s.toJson ∧ s.SavedAs s.toSortedJson ∧ ∀ v, s.SavedAs v → ofJson v = .ok s) ∧
    ∀ u s, ofJson u = .ok s → ∀ v, s.SavedAs v → ofJson v = ofJson u := by
  refine ⟨fun s => ⟨s.savedAs_toJson, s.savedAs_toSortedJson, fun v hv => ofJson_of_savedAs hv⟩, ?_⟩
  intro u s hu v hv
  rw [hu]
  exact ofJson_of_savedAs hv

/-- A specification with a connector in small letters, a filter as an array, a list that is nothing, and
members of other names. -/
def loose : Json :=
  .object [("version", .number (.integer ⟨2, by decide⟩)),
    ("companyFilters", .array
      [.object [("value", .array [.string "USA", .array [.number (.integer ⟨3, by decide⟩)]]),
          ("operator", .string "in"), ("field", .string "country"), ("logicalOperator", .string "or"),
          ("note", .object [])],
        .array [.string "industry", .string "Contains", .string "soft"]]),
    ("contactFilters", .null)]

/-- The filters of this specification. -/
def tight : FilterSet where
  company :=
    [{ field := "country", operator := "in", connector := some .or,
       operand := .list [.string "USA", .list [.number (.integer ⟨3, by decide⟩)]] },
      { field := "industry", operator := "Contains", operand := .string "soft" }]

theorem loose_ofJson_saved :
    ofJson loose = .ok tight ∧ tight.toJson ≠ loose ∧ ofJson tight.toJson = ofJson loose := by
  have hloose : ofJson loose = .ok tight := rfl
  refine ⟨hloose, by simp [tight, loose, toJson], ?_⟩
  exact ofJson_saved.2 loose tight hloose tight.toJson (ofJson_saved.1 tight).1

end FilterSet

end Targeting
