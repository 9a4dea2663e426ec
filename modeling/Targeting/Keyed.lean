/-!
# Lists sorted by key

Pairs of a key and a value in increasing order of the keys, each of which occurs once.

* `Keyed.insert`: one more pair, in place of the one with the same key;
* `Keyed.ofList`: the pairs of a list, of repeated keys the last;
* `Keyed.Sorted`, `Keyed.sorted_insert`, `Keyed.sorted_ofList`: the order of the keys, and what keeps it;
* `Keyed.lookup_insert`, `Keyed.lookup_filter_ne`, `Keyed.lookup_ofList`: what is found under a key;
* `Keyed.Sorted.ext`: a sorted list is known by what is found in it.
-/

namespace Targeting.Keyed

/-- Puts a pair into a list sorted by key, in place of the one with the same key. -/
def insert {α : Type} (key : String) (value : α) : List (String × α) → List (String × α)
  | [] => [(key, value)]
  | (k, v) :: rest =>
    if key < k then (key, value) :: (k, v) :: rest
    else if key = k then (key, value) :: rest
    else (k, v) :: insert key value rest

/-- The pairs of a list sorted by key, of repeated keys the last. -/
def ofList {α : Type} (pairs : List (String × α)) : List (String × α) :=
  pairs.foldl (fun sorted (k, v) => insert k v sorted) []

variable {α : Type}

/-! ## Order -/

/-- The keys of a list strictly increase. -/
def Sorted (pairs : List (String × α)) : Prop := pairs.Pairwise fun p q => p.1 < q.1

theorem mem_of_mem_insert {key : String} {value : α} {pairs : List (String × α)} {p : String × α}
    (h : p ∈ insert key value pairs) : p = (key, value) ∨ p ∈ pairs := by
  induction pairs with
  | nil => exact Or.inl (List.mem_singleton.mp h)
  | cons q rest ih =>
    rw [insert] at h
    split at h
    · exact List.mem_cons.mp h
    split at h
    · exact (List.mem_cons.mp h).imp id (List.mem_cons_of_mem _)
    · rcases List.mem_cons.mp h with rfl | h
      · exact Or.inr List.mem_cons_self
      · exact (ih h).imp id (List.mem_cons_of_mem _)

/-- A pair is put where it belongs. -/
theorem sorted_insert {pairs : List (String × α)} (h : Sorted pairs) (key : String) (value : α) :
    Sorted (insert key value pairs) := by
  induction pairs with
  | nil => exact List.pairwise_singleton _ _
  | cons q rest ih =>
    obtain ⟨hq, hrest⟩ := List.pairwise_cons.mp h
    rw [insert]
    split
    · next hlt =>
      exact List.pairwise_cons.mpr
        ⟨List.forall_mem_cons.mpr ⟨hlt, fun p hp => String.lt_trans hlt (hq p hp)⟩, h⟩
    split
    · next heq => exact List.pairwise_cons.mpr ⟨fun p hp => heq ▸ hq p hp, hrest⟩
    · next hlt hne =>
      have hbefore : q.1 < key := Std.lt_of_le_of_ne (String.not_lt.mp hlt) (Ne.symm hne)
      refine List.pairwise_cons.mpr ⟨fun p hp => ?_, ih hrest⟩
      rcases mem_of_mem_insert hp with rfl | hp
      · exact hbefore
      · exact hq p hp

theorem sorted_ofList (pairs : List (String × α)) : Sorted (ofList pairs) := by
  have hfold : ∀ sorted : List (String × α), Sorted sorted →
      Sorted (pairs.foldl (fun sorted (k, v) => insert k v sorted) sorted) := by
    induction pairs with
    | nil => exact fun _ h => h
    | cons p rest ih => exact fun _ h => ih _ (sorted_insert h p.1 p.2)
  exact hfold [] List.Pairwise.nil

/-! ## What is found -/

theorem lookup_cons_eq (p : String × α) (pairs : List (String × α)) (k : String) :
    (p :: pairs).lookup k = if k = p.1 then some p.2 else pairs.lookup k := by
  rw [List.lookup_cons]
  by_cases hk : k = p.1
  · rw [beq_iff_eq.mpr hk, if_pos hk]
  · rw [beq_eq_false_iff_ne.mpr hk, if_neg hk]

theorem lookup_eq_none_iff {pairs : List (String × α)} {k : String} :
    pairs.lookup k = none ↔ k ∉ pairs.map Prod.fst := by
  rw [List.lookup_eq_none_iff, List.mem_map]
  constructor
  · rintro h ⟨p, hp, rfl⟩
    exact bne_iff_ne.mp (h p hp) rfl
  · exact fun h p hp => bne_iff_ne.mpr fun hk => h ⟨p, hp, hk.symm⟩

theorem exists_lookup_iff {pairs : List (String × α)} {k : String} :
    (∃ a, pairs.lookup k = some a) ↔ k ∈ pairs.map Prod.fst := by
  rw [← Option.isSome_iff_exists, ← Option.ne_none_iff_isSome, Ne, lookup_eq_none_iff]
  exact Decidable.not_not

theorem lookup_insert (key : String) (value : α) (pairs : List (String × α)) (k : String) :
    (insert key value pairs).lookup k = if k = key then some value else pairs.lookup k := by
  induction pairs with
  | nil => exact lookup_cons_eq (key, value) [] k
  | cons q rest ih =>
    rw [insert]
    split
    · rw [lookup_cons_eq]
    split
    · next heq =>
      rw [lookup_cons_eq, lookup_cons_eq, heq]
      split <;> rfl
    · next hne =>
      rw [lookup_cons_eq, lookup_cons_eq, ih]
      by_cases hk : k = key
      · rw [if_pos hk, if_pos hk, if_neg fun h => hne (hk.symm.trans h)]
      · rw [if_neg hk, if_neg hk]

theorem lookup_filter_ne (key : String) (pairs : List (String × α)) (k : String) :
    (pairs.filter fun p => p.1 ≠ key).lookup k = if k = key then none else pairs.lookup k := by
  induction pairs with
  | nil => exact (ite_self none).symm
  | cons q rest ih =>
    rw [List.filter_cons, lookup_cons_eq]
    by_cases hq : q.1 = key
    · rw [if_neg (by simp [hq]), ih, hq]
      split <;> rfl
    · rw [if_pos (by simp [hq]), lookup_cons_eq, ih]
      by_cases hk : k = key
      · rw [if_neg fun h => hq (h.symm.trans hk), if_pos hk, if_pos hk]
      · rw [if_neg hk, if_neg hk]

/-- Of repeated keys the last counts. -/
theorem lookup_ofList (pairs : List (String × α)) (k : String) :
    (ofList pairs).lookup k = pairs.reverse.lookup k := by
  have hfold : ∀ sorted : List (String × α),
      (pairs.foldl (fun sorted (k, v) => insert k v sorted) sorted).lookup k =
        (pairs.reverse.lookup k).or (sorted.lookup k) := by
    induction pairs with
    | nil => exact fun _ => rfl
    | cons p rest ih =>
      intro sorted
      rw [List.foldl_cons, ih, lookup_insert, List.reverse_cons, List.lookup_append, lookup_cons_eq,
        Option.or_assoc]
      split <;> rfl
  exact (hfold []).trans Option.or_none

/-- A member of a list whose keys are apart is found under its key. -/
theorem mem_iff_lookup {pairs : List (String × α)} (h : (pairs.map Prod.fst).Nodup) {k : String} {a : α} :
    (k, a) ∈ pairs ↔ pairs.lookup k = some a := by
  induction pairs with
  | nil => exact ⟨nofun, nofun⟩
  | cons p rest ih =>
    obtain ⟨hp, hrest⟩ := List.nodup_cons.mp h
    rw [lookup_cons_eq, List.mem_cons, ih hrest]
    by_cases hk : k = p.1
    · rw [if_pos hk, Option.some.injEq]
      have habsent : rest.lookup k ≠ some a := by
        rw [hk, lookup_eq_none_iff.mpr hp]
        nofun
      exact ⟨fun h => (congrArg Prod.snd (h.resolve_right habsent)).symm,
        fun h => Or.inl (Prod.ext hk h.symm)⟩
    · rw [if_neg hk]
      exact ⟨fun h => h.resolve_left fun heq => hk (congrArg Prod.fst heq), Or.inr⟩

theorem Sorted.nodup {pairs : List (String × α)} (h : Sorted pairs) : (pairs.map Prod.fst).Nodup := by
  have hne : ∀ {p q : String × α}, p.1 < q.1 → p.1 ≠ q.1 := fun hlt heq =>
    String.lt_irrefl _ (heq ▸ hlt)
  exact List.pairwise_map.mpr (List.Pairwise.imp hne h)

/-- The list that is made of pairs whose keys are apart has them as members. -/
theorem mem_ofList_iff {pairs : List (String × α)} (h : (pairs.map Prod.fst).Nodup) {p : String × α} :
    p ∈ ofList pairs ↔ p ∈ pairs := by
  have hreverse : (pairs.reverse.map Prod.fst).Nodup := by
    rw [List.map_reverse]
    exact List.pairwise_reverse.mpr (List.Pairwise.imp Ne.symm h)
  rw [mem_iff_lookup (sorted_ofList pairs).nodup, lookup_ofList, ← mem_iff_lookup hreverse,
    List.mem_reverse]

/-- A sorted list is known by what is found in it. -/
theorem Sorted.ext {as bs : List (String × α)} (ha : Sorted as) (hb : Sorted bs)
    (h : ∀ k, as.lookup k = bs.lookup k) : as = bs := by
  induction as generalizing bs with
  | nil =>
    cases bs with
    | nil => rfl
    | cons q bs =>
      have hq := h q.1
      rw [lookup_cons_eq, if_pos rfl] at hq
      cases hq
  | cons p as ih =>
    obtain ⟨hp, has⟩ := List.pairwise_cons.mp ha
    have hfirst := h p.1
    rw [lookup_cons_eq, if_pos rfl] at hfirst
    cases bs with
    | nil => cases hfirst
    | cons q bs =>
      obtain ⟨hq, hbs⟩ := List.pairwise_cons.mp hb
      -- The first key of each list occurs in the other, and none is less than it.
      have hkey : p.1 = q.1 := by
        have hsecond := h q.1
        rw [lookup_cons_eq (p := q), if_pos rfl, lookup_cons_eq] at hsecond
        rw [lookup_cons_eq] at hfirst
        by_cases hpq : p.1 = q.1
        · exact hpq
        · rw [if_neg hpq] at hfirst
          rw [if_neg (Ne.symm hpq)] at hsecond
          obtain ⟨x, hx, hxkey⟩ := List.mem_map.mp (exists_lookup_iff.mp ⟨_, hfirst.symm⟩)
          obtain ⟨y, hy, hykey⟩ := List.mem_map.mp (exists_lookup_iff.mp ⟨_, hsecond⟩)
          exact absurd (String.lt_trans (hxkey ▸ hq x hx) (hykey ▸ hp y hy)) (String.lt_irrefl _)
      rw [lookup_cons_eq, if_pos hkey, Option.some.injEq] at hfirst
      obtain rfl : p = q := Prod.ext hkey hfirst
      refine congrArg (p :: ·) (ih has hbs fun k => ?_)
      have hk := h k
      rw [lookup_cons_eq, lookup_cons_eq] at hk
      by_cases hkp : k = p.1
      · rw [hkp, lookup_eq_none_iff.mpr (List.nodup_cons.mp ha.nodup).1,
          lookup_eq_none_iff.mpr (List.nodup_cons.mp hb.nodup).1]
      · rwa [if_neg hkp, if_neg hkp] at hk

end Targeting.Keyed
