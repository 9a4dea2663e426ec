import Mathlib.Data.List.Forall2
import Targeting.Json.Merge
import Targeting.Proofs.Printed

/-!
# Values laid over each other

The values that are read from texts have their keys sorted, and so have their members. Laid over another
value, such a value decides what is found under each of its keys and leaves all other keys alone; laid over
it once more, it changes nothing.

* `Json.Ordered`, `Json.ordered_of_parse?`: values with sorted keys; `Json.parse?_of_document`: their texts;
* `Document.at?`, **`Json.at?_of_parse?`**: of several members of one name the last counts;
* `Json.lookup_membersOver`: what is found in an object with members laid over it;
* **`Json.laidOver_laidOver`**: a value laid twice over another.
-/

namespace Targeting

namespace Json

mutual

/-- The keys of a value are sorted at every level. -/
def Ordered : Json → Prop
  | .array items => OrderedItems items
  | .object members => Keyed.Sorted members ∧ OrderedMembers members
  | _ => True

/-- The keys of items are sorted. -/
def OrderedItems : List Json → Prop
  | [] => True
  | v :: rest => v.Ordered ∧ OrderedItems rest

/-- The keys of the values of members are sorted. -/
def OrderedMembers : List (String × Json) → Prop
  | [] => True
  | (_, v) :: rest => v.Ordered ∧ OrderedMembers rest

end

theorem orderedMembers_iff {ms : List (String × Json)} : OrderedMembers ms ↔ ∀ m ∈ ms, m.2.Ordered := by
  induction ms with
  | nil => simp [OrderedMembers]
  | cons m ms ih => simp [OrderedMembers, ih]

theorem ordered_of_lookup {ms : List (String × Json)} (h : OrderedMembers ms) {key : String} {v : Json}
    (hv : ms.lookup key = some v) : v.Ordered := by
  obtain ⟨l₁, l₂, rfl, -⟩ := List.lookup_eq_some_iff.mp hv
  exact orderedMembers_iff.mp h (key, v) (by simp)

end Json

/-! ## Values of texts -/

theorem Keyed.mem_of_mem_ofList {α : Type} {pairs : List (String × α)} {p : String × α}
    (h : p ∈ Keyed.ofList pairs) : p ∈ pairs := by
  have hlookup := (Keyed.mem_iff_lookup (Keyed.sorted_ofList pairs).nodup).mp (show (p.1, p.2) ∈ _ from h)
  rw [Keyed.lookup_ofList] at hlookup
  obtain ⟨l₁, l₂, heq, -⟩ := List.lookup_eq_some_iff.mp hlookup
  rw [← List.mem_reverse, heq]
  simp

/-- Sorted pairs are in their place. -/
theorem Keyed.ofList_eq_self {α : Type} {pairs : List (String × α)} (h : Keyed.Sorted pairs) :
    Keyed.ofList pairs = pairs := by
  refine Keyed.Sorted.ext (Keyed.sorted_ofList pairs) h fun k => Option.ext fun a => ?_
  rw [← Keyed.mem_iff_lookup (Keyed.sorted_ofList pairs).nodup, Keyed.mem_ofList_iff h.nodup,
    Keyed.mem_iff_lookup h.nodup]

theorem Json.ordered_sorted {ms : List (String × Json)} (h : ∀ m ∈ ms, m.2.Ordered) :
    (Json.sorted ms).Ordered :=
  ⟨Keyed.sorted_ofList ms, orderedMembers_iff.mpr fun m hm => h m (Keyed.mem_of_mem_ofList hm)⟩

theorem Json.whole_sorted {ms : List (String × Json)} (h : ∀ m ∈ ms, m.2.Whole) :
    (Json.sorted ms).Whole :=
  wholeMembers_iff.mpr fun m hm => h m (Keyed.mem_of_mem_ofList hm)

namespace Document

open Json

mutual

theorem ordered_of_toJson? {room : Nat} {d : Document} {v : Json} (h : d.toJson? room = some v) :
    v.Ordered := by
  cases d with
  | array items =>
    cases room with
    | zero => cases h
    | succ room =>
      obtain ⟨vs, hvs, rfl⟩ := Option.map_eq_some_iff.mp h
      exact orderedItems_of_toJsonItems? hvs
  | object members =>
    cases room with
    | zero => cases h
    | succ room =>
      obtain ⟨ms, hms, rfl⟩ := Option.map_eq_some_iff.mp h
      exact ordered_sorted (orderedMembers_iff.mp (orderedMembers_of_toJsonMembers? hms))
  | unreadable => cases h
  | broken => cases h
  | _ =>
    cases h
    trivial

theorem orderedItems_of_toJsonItems? {room : Nat} {ds : List Document} {vs : List Json}
    (h : toJsonItems? room ds = some vs) : OrderedItems vs := by
  cases ds with
  | nil =>
    cases h
    trivial
  | cons d ds =>
    simp only [toJsonItems?, Option.bind_eq_bind, Option.bind_eq_some_iff, Option.pure_def,
      Option.some.injEq] at h
    obtain ⟨v, hv, vs, hvs, rfl⟩ := h
    exact ⟨ordered_of_toJson? hv, orderedItems_of_toJsonItems? hvs⟩

theorem orderedMembers_of_toJsonMembers? {room : Nat} {ds : List (Option String × Document)}
    {ms : List (String × Json)} (h : toJsonMembers? room ds = some ms) : OrderedMembers ms := by
  cases ds with
  | nil =>
    cases h
    trivial
  | cons d ds =>
    obtain ⟨key, d⟩ := d
    cases key with
    | none => cases h
    | some key =>
      simp only [toJsonMembers?, Option.bind_eq_bind, Option.bind_eq_some_iff, Option.pure_def,
        Option.some.injEq] at h
      obtain ⟨v, hv, ms, hms, rfl⟩ := h
      exact ⟨ordered_of_toJson? hv, orderedMembers_of_toJsonMembers? hms⟩

end

end Document

namespace Json

theorem ordered_of_parse? {s : String} {v : Json} (h : parse? s = some v) : v.Ordered := by
  simp only [parse?] at h
  split at h
  · exact Document.ordered_of_toJson? h
  · cases h

mutual

/-- The levels of nesting of a value. -/
def depth : Json → Nat
  | .array items => depthItems items + 1
  | .object members => depthMembers members + 1
  | _ => 0

/-- The levels of nesting of items. -/
def depthItems : List Json → Nat
  | [] => 0
  | v :: rest => max v.depth (depthItems rest)

/-- The levels of nesting of the values of members. -/
def depthMembers : List (String × Json) → Nat
  | [] => 0
  | (_, v) :: rest => max v.depth (depthMembers rest)

end

mutual

/-- A value without too many levels is the value of its document. -/
theorem toJson?_ofJson {v : Json} (h : v.Ordered) {room : Nat} (hroom : v.depth ≤ room) :
    (Document.ofJson v).toJson? room = some v := by
  cases v with
  | array items =>
    cases room with
    | zero => cases hroom
    | succ room =>
      rw [Document.ofJson, Document.toJson?, toJsonItems?_ofJsonItems h (Nat.le_of_succ_le_succ hroom)]
      rfl
  | object members =>
    cases room with
    | zero => cases hroom
    | succ room =>
      rw [Document.ofJson, Document.toJson?,
        toJsonMembers?_ofJsonMembers h.2 (Nat.le_of_succ_le_succ hroom), Option.map_some, sorted,
        Keyed.ofList_eq_self h.1]
  | _ => rfl

theorem toJsonItems?_ofJsonItems {items : List Json} (h : OrderedItems items) {room : Nat}
    (hroom : depthItems items ≤ room) :
    Document.toJsonItems? room (Document.ofJsonItems items) = some items := by
  cases items with
  | nil => rfl
  | cons v rest =>
    obtain ⟨hv, hrest⟩ := Nat.max_le.mp hroom
    rw [Document.ofJsonItems, Document.toJsonItems?, toJson?_ofJson h.1 hv,
      toJsonItems?_ofJsonItems h.2 hrest]
    rfl

theorem toJsonMembers?_ofJsonMembers {members : List (String × Json)} (h : OrderedMembers members)
    {room : Nat} (hroom : depthMembers members ≤ room) :
    Document.toJsonMembers? room (Document.ofJsonMembers members) = some members := by
  cases members with
  | nil => rfl
  | cons m rest =>
    obtain ⟨key, v⟩ := m
    obtain ⟨hv, hrest⟩ := Nat.max_le.mp hroom
    rw [Document.ofJsonMembers, Document.toJsonMembers?, toJson?_ofJson h.1 hv,
      toJsonMembers?_ofJsonMembers h.2 hrest]
    rfl

end

/-- **The value of a text** is the value that the text was written for. -/
theorem parse?_of_document {v : Json} (h : v.Ordered) (hdepth : v.depth ≤ Document.deepest) {s : String}
    (hs : Document.ofText s = { root := Document.ofJson v, ends := true }) : parse? s = some v := by
  rw [parse?, hs]
  exact toJson?_ofJson h hdepth

/-- The value at a path of keys. -/
def at? : List String → Json → Option Json
  | [], v => some v
  | key :: path, v => (v.get? key).bind (at? path)

end Json

namespace Document

/-- What a tree has under a key: of several members of one name the last. -/
def last? (key : String) : Document → Option Document
  | .object members => members.reverse.lookup (some key)
  | _ => none

/-- What a tree has at a path of keys. -/
def at? : List String → Document → Option Document
  | [], d => some d
  | key :: path, d => (d.last? key).bind (at? path)

/-- A member of a tree and the member that it is in the value of the tree. -/
def Stands (room : Nat) (d : Option String × Document) (m : String × Json) : Prop :=
  d.1 = some m.1 ∧ d.2.toJson? room = some m.2

theorem forall₂_of_toJsonMembers? {room : Nat} {ds : List (Option String × Document)}
    {ms : List (String × Json)} (h : toJsonMembers? room ds = some ms) :
    List.Forall₂ (Stands room) ds ms := by
  induction ds generalizing ms with
  | nil =>
    cases h
    exact .nil
  | cons d ds ih =>
    obtain ⟨key, d⟩ := d
    cases key with
    | none => cases h
    | some key =>
      simp only [toJsonMembers?, Option.bind_eq_bind, Option.bind_eq_some_iff, Option.pure_def,
        Option.some.injEq] at h
      obtain ⟨v, hv, ms, hms, rfl⟩ := h
      exact .cons ⟨rfl, hv⟩ (ih hms)

theorem lookup_of_forall₂ {room : Nat} {ds : List (Option String × Document)} {ms : List (String × Json)}
    (h : List.Forall₂ (Stands room) ds ms) (key : String) :
    Option.Rel (fun d v => d.toJson? room = some v) (ds.lookup (some key)) (ms.lookup key) := by
  induction h with
  | nil => exact .none
  | @cons d m ds ms hd _ ih =>
    obtain ⟨_, d⟩ := d
    obtain ⟨k, v⟩ := m
    obtain ⟨rfl, hv⟩ := hd
    by_cases hkey : key = k
    · subst hkey
      rw [List.lookup_cons_self, List.lookup_cons_self]
      exact .some hv
    · rw [List.lookup_cons, List.lookup_cons, beq_false_of_ne hkey, beq_false_of_ne (by simpa using hkey)]
      exact ih

/-- Under a key the value of a tree has what the last member of that name stands for. -/
theorem get?_of_toJson? {room : Nat} {d : Document} {v : Json} (h : d.toJson? room = some v)
    (key : String) :
    Option.Rel (fun d v => d.toJson? (room - 1) = some v) (d.last? key) (v.get? key) := by
  cases d with
  | object members =>
    cases room with
    | zero => cases h
    | succ room =>
      obtain ⟨ms, hms, rfl⟩ := Option.map_eq_some_iff.mp h
      have hmembers := List.rel_reverse (forall₂_of_toJsonMembers? hms)
      rw [show (Json.sorted ms).get? key = ms.reverse.lookup key from Keyed.lookup_ofList ms key]
      exact lookup_of_forall₂ hmembers key
  | array items =>
    cases room with
    | zero => cases h
    | succ room =>
      obtain ⟨vs, -, rfl⟩ := Option.map_eq_some_iff.mp h
      exact .none
  | unreadable => cases h
  | broken => cases h
  | _ =>
    cases h
    exact .none

/-- **The value at a path of keys** is what the last members of these names stand for. -/
theorem at?_of_toJson? {room : Nat} {d : Document} {v : Json} (h : d.toJson? room = some v)
    (path : List String) :
    Option.Rel (fun d v => d.toJson? (room - path.length) = some v) (d.at? path) (v.at? path) := by
  induction path generalizing room d v with
  | nil => exact .some h
  | cons key path ih =>
    rw [Json.at?, at?]
    have hkey := get?_of_toJson? h key
    generalize d.last? key = under, v.get? key = w at hkey ⊢
    cases hkey with
    | none => exact .none
    | some h' =>
      rw [List.length_cons, Nat.add_comm, Nat.sub_add_eq]
      exact ih h'

end Document

namespace Json

theorem at?_of_parse? {s : String} {v : Json} (h : parse? s = some v) (path : List String) :
    Option.Rel (fun d w => d.toJson? (Document.deepest - path.length) = some w)
      ((Document.ofText s).root.at? path) (v.at? path) := by
  simp only [parse?] at h
  split at h
  · exact Document.at?_of_toJson? h path
  · cases h

/-! ## Laying values over each other -/

/-- What is found where a value is laid over another one, or nothing is. -/
def overlaid (given : Option Json) (w : Json) : Json := given.elim w fun v => v.laidOver w

theorem laidOver_of_not_object {w : Json} (h : ∀ ms, w ≠ .object ms) (v : Json) : v.laidOver w = v := by
  cases v with
  | object ms =>
    cases w with
    | object below => exact absurd rfl (h below)
    | _ => rfl
  | _ => rfl

theorem sorted_membersOver (ms : List (String × Json)) {below : List (String × Json)}
    (h : Keyed.Sorted below) : Keyed.Sorted (membersOver ms below) := by
  induction ms generalizing below with
  | nil => exact h
  | cons m ms ih =>
    rw [membersOver]
    exact ih (Keyed.sorted_insert h _ _)

/-- **What is found in an object with members laid over it**: under a key of theirs what they have there,
laid over what was there, and under every other key what was there. -/
theorem lookup_membersOver {ms : List (String × Json)} (h : (ms.map Prod.fst).Nodup)
    (below : List (String × Json)) (key : String) :
    (membersOver ms below).lookup key =
      match below.lookup key with
      | some w => some (overlaid (ms.lookup key) w)
      | none => ms.lookup key := by
  induction ms generalizing below with
  | nil => cases hkey : below.lookup key <;> simp [membersOver, overlaid, hkey]
  | cons m ms ih =>
    obtain ⟨k, v⟩ := m
    obtain ⟨hfresh, hrest⟩ := List.nodup_cons.mp h
    rw [membersOver, ih hrest, Keyed.lookup_insert, Keyed.lookup_cons_eq]
    by_cases hkey : key = k
    · subst hkey
      rw [if_pos rfl, if_pos rfl, Keyed.lookup_eq_none_iff.mpr hfresh]
      cases below.lookup key <;> rfl
    · rw [if_neg hkey, if_neg hkey]

theorem lookup_membersOver_of_some {ms : List (String × Json)} (h : (ms.map Prod.fst).Nodup)
    {below : List (String × Json)} {key : String} {w : Json} (hw : below.lookup key = some w) :
    (membersOver ms below).lookup key = some (overlaid (ms.lookup key) w) := by
  rw [lookup_membersOver h, hw]

theorem lookup_membersOver_of_none {ms : List (String × Json)} (h : (ms.map Prod.fst).Nodup)
    {below : List (String × Json)} {key : String} (hw : below.lookup key = none) :
    (membersOver ms below).lookup key = ms.lookup key := by
  rw [lookup_membersOver h, hw]

mutual

theorem laidOver_self {v : Json} (h : v.Ordered) : v.laidOver v = v := by
  cases v with
  | object ms =>
    have hsorted := sorted_membersOver ms h.1
    refine congrArg Json.object (Keyed.Sorted.ext hsorted h.1 fun key => ?_)
    cases hkey : ms.lookup key with
    | none => rw [lookup_membersOver_of_none h.1.nodup hkey, hkey]
    | some v =>
      have hv := laidOver_self_of_mem h.2 (key, v) ((Keyed.mem_iff_lookup h.1.nodup).mpr hkey)
      rw [lookup_membersOver_of_some h.1.nodup hkey, hkey]
      exact congrArg some hv
  | _ => rfl

theorem laidOver_self_of_mem {ms : List (String × Json)} (h : OrderedMembers ms) :
    ∀ m ∈ ms, m.2.laidOver m.2 = m.2 := by
  cases ms with
  | nil => exact nofun
  | cons m ms => exact List.forall_mem_cons.mpr ⟨laidOver_self h.1, laidOver_self_of_mem h.2⟩

end

mutual

/-- **A value laid over another one a second time** changes nothing. -/
theorem laidOver_laidOver {v w : Json} (hv : v.Ordered) (hw : w.Ordered) :
    v.laidOver (v.laidOver w) = v.laidOver w := by
  cases v with
  | object ms =>
    by_cases hobject : ∃ below, w = .object below
    · obtain ⟨below, rfl⟩ := hobject
      have hnodup := hv.1.nodup
      have hsorted := sorted_membersOver ms hw.1
      refine congrArg Json.object
        (Keyed.Sorted.ext (sorted_membersOver ms hsorted) hsorted fun key => ?_)
      cases hbelow : below.lookup key with
      | none =>
        -- What the members bring along themselves is already in its place.
        have honce := lookup_membersOver_of_none hnodup hbelow
        cases hkey : ms.lookup key with
        | none => rw [lookup_membersOver_of_none hnodup (honce.trans hkey), honce]
        | some v =>
          rw [lookup_membersOver_of_some hnodup (honce.trans hkey), honce, hkey]
          exact congrArg some (laidOver_self (ordered_of_lookup hv.2 hkey))
      | some w =>
        have honce := lookup_membersOver_of_some hnodup hbelow
        rw [lookup_membersOver_of_some hnodup honce, honce]
        cases hkey : ms.lookup key with
        | none => rfl
        | some v =>
          have hmem := (Keyed.mem_iff_lookup hnodup).mpr hkey
          have hordered := ordered_of_lookup hw.2 hbelow
          exact congrArg some (laidOver_laidOver_of_mem hv.2 (key, v) hmem w hordered)
    · rw [laidOver_of_not_object fun below hbelow => hobject ⟨below, hbelow⟩]
      exact laidOver_self hv
  | _ => rfl

theorem laidOver_laidOver_of_mem {ms : List (String × Json)} (hms : OrderedMembers ms) :
    ∀ m ∈ ms, ∀ w : Json, w.Ordered → m.2.laidOver (m.2.laidOver w) = m.2.laidOver w := by
  cases ms with
  | nil => exact nofun
  | cons m ms =>
    exact List.forall_mem_cons.mpr
      ⟨fun w hw => laidOver_laidOver hms.1 hw, laidOver_laidOver_of_mem hms.2⟩

end

end Json

end Targeting
