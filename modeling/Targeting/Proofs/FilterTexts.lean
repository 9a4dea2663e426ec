import Targeting.Proofs.Merging
import Targeting.Proofs.SavedFilters

/-!
# Texts of filters

Filters are saved as texts with sorted keys, in any layout. Such a text is read as the filters that it was
written for, integers of 64 bits with sign or without included, as long as it is not nested too deeply.

* `Operand.Fits`: operands that can be read back;
* `FilterSet.forall_filters`, `FilterSet.forall_lists`: what holds of every part of the text;
* **`FilterSet.ofText_chars`**: filters are read back.
-/

namespace Targeting

theorem Json.depthMembers_le {ms : List (String × Json)} {k : Nat} (h : ∀ m ∈ ms, m.2.depth ≤ k) :
    depthMembers ms ≤ k := by
  induction ms with
  | nil => exact Nat.zero_le k
  | cons m ms ih =>
    exact Nat.max_le.mpr ⟨h m List.mem_cons_self, ih fun n hn => h n (List.mem_cons_of_mem m hn)⟩

theorem Json.depth_sorted_le {ms : List (String × Json)} {k : Nat} (h : ∀ m ∈ ms, m.2.depth ≤ k) :
    (Json.sorted ms).depth ≤ k + 1 :=
  Nat.succ_le_succ (depthMembers_le fun m hm => h m (Keyed.mem_of_mem_ofList hm))

/-! ## Operands -/

mutual

theorem Operand.ordered_toJson (v : Operand) : v.toJson.Ordered := by
  cases v with
  | string => trivial
  | number => trivial
  | list items => exact Operand.ordered_toJsons items

theorem Operand.ordered_toJsons (items : List Operand) : Json.OrderedItems (Operand.toJsons items) := by
  cases items with
  | nil => trivial
  | cons v rest => exact ⟨v.ordered_toJson, Operand.ordered_toJsons rest⟩

end

/-- An operand can be read back from a text of filters: it has no numbers but integers, and there is room for
its nesting below both lists and their filters. -/
structure Operand.Fits (v : Operand) : Prop where
  whole : v.toJson.Whole
  depth : v.toJson.depth + 3 ≤ Document.deepest

/-! ## Filters -/

namespace Filter

variable {f : Filter}

/-- What holds of the operand of a filter and of texts holds of all its members. -/
theorem forall_mem_members {P : Json → Prop} (htext : ∀ s, P (.string s)) (hoperand : P f.operand.toJson) :
    ∀ m ∈ f.members, P m.2 := by
  cases h : f.connector <;> simp [members, h, htext, hoperand]

theorem ordered_sorted (f : Filter) : (Json.sorted f.members).Ordered :=
  Json.ordered_sorted (forall_mem_members (fun _ => trivial) f.operand.ordered_toJson)

theorem whole_sorted (h : f.operand.Fits) : (Json.sorted f.members).Whole :=
  Json.whole_sorted (forall_mem_members (fun _ => trivial) h.whole)

theorem depth_sorted (h : f.operand.Fits) : (Json.sorted f.members).depth + 2 ≤ Document.deepest := by
  obtain ⟨k, hk⟩ : ∃ k, Document.deepest = k + 3 := ⟨124, rfl⟩
  have hdepth := h.depth
  have := Json.depth_sorted_le (forall_mem_members (f := f) (P := fun v => v.depth ≤ k)
    (fun _ => Nat.zero_le k) (by omega))
  omega

end Filter

/-! ## Both lists -/

namespace FilterSet

/-- What holds of all filters holds of the items of both lists. -/
theorem forall_filters {s : FilterSet} {P : List Json → Prop} (hnil : P [])
    (hcons : ∀ f ∈ s.company ++ s.contact, ∀ rest, P rest → P (Json.sorted f.members :: rest)) :
    ∀ fs ⊆ s.company ++ s.contact, P (fs.map fun f => Json.sorted f.members) := by
  intro fs hfs
  induction fs with
  | nil => exact hnil
  | cons f fs ih =>
    obtain ⟨hf, hfs⟩ := List.cons_subset.mp hfs
    exact hcons f hf _ (ih hfs)

theorem forall_lists {s : FilterSet} {P : Json → Prop}
    (h : ∀ fs ⊆ s.company ++ s.contact, P (.array (fs.map fun f => Json.sorted f.members))) :
    ∀ m ∈ [("companyFilters", Json.array (s.company.map fun f => .sorted f.members)),
      ("contactFilters", Json.array (s.contact.map fun f => .sorted f.members))], P m.2 := by
  simp only [List.forall_mem_cons, List.not_mem_nil, false_implies, implies_true, and_true]
  exact ⟨h _ (List.subset_append_left _ _), h _ (List.subset_append_right _ _)⟩

variable {s : FilterSet}

theorem ordered_toSortedJson (s : FilterSet) : s.toSortedJson.Ordered := by
  refine Json.ordered_sorted (forall_lists fun fs hfs => ?_)
  exact forall_filters (P := Json.OrderedItems) trivial
    (fun f _ _ hrest => ⟨f.ordered_sorted, hrest⟩) fs hfs

theorem whole_toSortedJson (h : ∀ f ∈ s.company ++ s.contact, f.operand.Fits) : s.toSortedJson.Whole := by
  refine Json.whole_sorted (forall_lists fun fs hfs => ?_)
  exact forall_filters (P := Json.WholeItems) trivial
    (fun f hf _ hrest => ⟨Filter.whole_sorted (h f hf), hrest⟩) fs hfs

theorem depth_toSortedJson (h : ∀ f ∈ s.company ++ s.contact, f.operand.Fits) :
    s.toSortedJson.depth ≤ Document.deepest := by
  obtain ⟨k, hk⟩ : ∃ k, Document.deepest = k + 2 := ⟨125, rfl⟩
  have hfilter : ∀ f ∈ s.company ++ s.contact, (Json.sorted f.members).depth ≤ k := fun f hf => by
    have := Filter.depth_sorted (h f hf)
    omega
  rw [hk]
  refine Json.depth_sorted_le (forall_lists (P := fun v => v.depth ≤ k + 1) fun fs hfs => ?_)
  exact Nat.succ_le_succ (forall_filters (P := fun items => Json.depthItems items ≤ k) (Nat.zero_le k)
    (fun f hf _ hrest => Nat.max_le.mpr ⟨hfilter f hf, hrest⟩) fs hfs)

/-- **Filters are read** as they are, from a text in any layout. -/
theorem ofText_chars (l : Json.Layout) (h : ∀ f ∈ s.company ++ s.contact, f.operand.Fits) :
    ofText (String.ofList (l.chars 0 s.toSortedJson)) = .ok s := by
  have hdocument := Document.ofText_chars l (whole_toSortedJson h)
  rw [ofText, Json.parse?_of_document s.ordered_toSortedJson (depth_toSortedJson h) hdocument]
  exact ofJson_of_savedAs s.savedAs_toSortedJson

end FilterSet

end Targeting
