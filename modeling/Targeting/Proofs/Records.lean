import Mathlib.Data.List.Nodup
import Mathlib.Data.List.Pairwise
import Targeting.Json.Record
import Targeting.Proofs.Outcome

/-!
# What records hold

A record that is read from a JSON object holds, in each of its parts, what the object gives for the member
of that part, and what it held before for a member that is left out. Members of other names do not matter,
nor does the order of the members.

* `Read.string_eq_ok_iff`, `Read.choice_eq_ok_iff`, …: which values are read by the readers of plain kinds;
* `Part`, `Part.member`: a part of a record and its member; `Part.Filled`: what a part holds after it is read;
* `Record.Made`, **`Record.made_of_values`**: a record made of parts;
* **`Record.Made.readObject_eq_ok_iff`**, **`Record.Made.exists_readObject_iff`**: which objects are read,
  and as what; `Record.Made.readItems_eq_ok_iff`: which lists are;
* `Part.written`, **`Record.Made.readObject_written`**: a record read back from what is written for its parts;
* `Record.plain`, `Record.readObject_plain`: other names of members, where none of them is used.
-/

namespace Targeting

/-! ## Readers of plain kinds -/

namespace Read

theorem string_eq_ok_iff {v : Json} {s : String} : string.ofJson v = .ok s ↔ v = .string s := by
  cases v with
  | string t => simp [ofJson, Document.ofJson, string]
  | number n => cases n <;> simp [ofJson, Document.ofJson, string]
  | _ => simp [ofJson, Document.ofJson, string]

theorem bool_eq_ok_iff {v : Json} {b : Bool} : bool.ofJson v = .ok b ↔ v = .bool b := by
  cases v with
  | bool c => simp [ofJson, Document.ofJson, bool]
  | number n => cases n <;> simp [ofJson, Document.ofJson, bool]
  | _ => simp [ofJson, Document.ofJson, bool]

theorem uint64_eq_ok_iff {kind : String} {v : Json} {n : UInt64} :
    (uint64 kind).ofJson v = .ok n ↔ v = .ofUInt64 n := by
  cases v with
  | number x =>
    cases x with
    | float x => simp [ofJson, Document.ofJson, uint64, Json.ofUInt64]
    | integer k =>
      obtain ⟨k, hlo, hhi⟩ := k
      have hbound : k ≤ 18446744073709551615 := hhi
      simp only [ofJson, Document.ofJson, uint64, Json.ofUInt64, Json.number.injEq,
        Json.Number.integer.injEq, Subtype.mk.injEq]
      split
      · simp only [reduceCtorEq, false_iff]
        omega
      · simp only [Except.ok.injEq, ← UInt64.toNat_inj, UInt64.toNat_ofNat']
        omega
  | _ => simp [ofJson, Document.ofJson, uint64, Json.ofUInt64]

theorem variant_eq_ok_iff {α : Type} {variants : List (String × α)} {name : String} {a : α} :
    variant variants name = .ok a ↔ variants.lookup name = some a := by
  unfold variant
  cases variants.lookup name <;> simp

theorem choice_eq_ok_iff {α : Type} {variants : List (String × α)} {v : Json} {a : α} :
    (choice .value variants).ofJson v = .ok a ↔
      ∃ name, variants.lookup name = some a ∧ (v = .string name ∨ v = .object [(name, .null)]) := by
  cases v with
  | string s => simp [ofJson, Document.ofJson, choice, variant_eq_ok_iff]
  | object members =>
    rcases members with _ | ⟨⟨key, w⟩, _ | ⟨m, rest⟩⟩
    · simp [ofJson, Document.ofJson, Document.ofJsonMembers, choice]
    · simp only [ofJson, Document.ofJson, Document.ofJsonMembers, choice, bind_eq_ok_iff,
        variant_eq_ok_iff]
      cases w with
      | null => simp [Document.ofJson, pure, Except.pure]
      | number n => cases n <;> simp [Document.ofJson]
      | _ => simp [Document.ofJson]
    · simp [ofJson, Document.ofJson, Document.ofJsonMembers, choice]
  | number n => cases n <;> simp [ofJson, Document.ofJson, choice]
  | _ => simp [ofJson, Document.ofJson, choice]

theorem optional_eq_ok_iff {α : Type} {read : Read α} {v : Json} {x : Option α} :
    (optional read).ofJson v = .ok x ↔
      (v = .null ∧ x = none) ∨ ∃ a, x = some a ∧ v ≠ .null ∧ read.ofJson v = .ok a := by
  have hmap : (read.ofJson v).map some = .ok x ↔ ∃ a, x = some a ∧ read.ofJson v = .ok a :=
    map_eq_ok_iff.trans (exists_congr fun a => and_comm.trans (and_congr_left' eq_comm))
  cases v with
  | null => simp [ofJson, Document.ofJson, optional, eq_comm]
  | _ => simpa [ofJson, Document.ofJson, optional] using hmap

end Read

/-! ## Parts -/

/-- A part of a record: its name, how its value is read, and where the record keeps it. The values that it
takes are said by a relation of their own. -/
structure Part (σ : Type) where
  name : String
  Value : Type
  optional : Bool
  read : Read Value
  takes : Json → Value → Prop
  get : σ → Value
  set : Value → σ → σ
  takes_iff : ∀ v x, read.ofJson v = .ok x ↔ takes v x
  get_set : ∀ x s, get (set x s) = x

namespace Part

variable {σ : Type}

/-- The member that fills a part. -/
def member (p : Part σ) : Member σ where
  name := p.name
  otherNames := []
  optional := p.optional
  store d s := (p.read d).map (p.set · s)

/-- A part that may be left out. -/
def orAbsent (p : Part σ) : Part σ := { p with optional := true }

variable {α : Type} (name : String)

/-- A part that holds a text. -/
def text (get : σ → String) (set : String → σ → σ) (h : ∀ x s, get (set x s) = x) : Part σ where
  name
  Value := String
  optional := false
  read := Read.string
  takes v x := v = .string x
  get
  set
  takes_iff _ _ := Read.string_eq_ok_iff
  get_set := h

/-- A part that holds a truth value. -/
def flag (get : σ → Bool) (set : Bool → σ → σ) (h : ∀ x s, get (set x s) = x) : Part σ where
  name
  Value := Bool
  optional := false
  read := Read.bool
  takes v x := v = .bool x
  get
  set
  takes_iff _ _ := Read.bool_eq_ok_iff
  get_set := h

/-- A part that holds a natural number of 64 bits, which messages call by its kind. -/
def number (kind : String) (get : σ → UInt64) (set : UInt64 → σ → σ) (h : ∀ x s, get (set x s) = x) :
    Part σ where
  name
  Value := UInt64
  optional := false
  read := Read.uint64 kind
  takes v x := v = .ofUInt64 x
  get
  set
  takes_iff _ _ := Read.uint64_eq_ok_iff
  get_set := h

/-- A part that holds one of several choices, given by its name or as the only key of an object. -/
def choice (byName : List (String × α)) (get : σ → α) (set : α → σ → σ) (h : ∀ x s, get (set x s) = x) :
    Part σ where
  name
  Value := α
  optional := false
  read := Read.choice .value byName
  takes v x := ∃ n, byName.lookup n = some x ∧ (v = .string n ∨ v = .object [(n, .null)])
  get
  set
  takes_iff _ _ := Read.choice_eq_ok_iff
  get_set := h

/-- A part that takes whatever its reader reads. -/
def reading (read : Read α) (get : σ → α) (set : α → σ → σ) (h : ∀ x s, get (set x s) = x) : Part σ where
  name
  Value := α
  optional := false
  read
  takes v x := read.ofJson v = .ok x
  get
  set
  takes_iff _ _ := Iff.rfl
  get_set := h

variable {name}

/-- Two parts have names of their own, and neither is changed by what is put into the other. -/
structure Apart (p q : Part σ) : Prop where
  name : p.name ≠ q.name
  left : ∀ x s, p.get (q.set x s) = p.get s
  right : ∀ x s, q.get (p.set x s) = q.get s

instance : Std.Symm (@Apart σ) := ⟨fun _ _ h => ⟨h.name.symm, h.right, h.left⟩⟩

/-- What a part holds in `t` after it was read over `s`: the value that is given for it, or what it held
before if it may be left out. -/
def Filled (p : Part σ) (given : Option Json) (s t : σ) : Prop :=
  match given with
  | some v => p.takes v (p.get t)
  | none => p.optional = true ∧ p.get t = p.get s

/-- Something can be read for a part: a value that it takes is given, or it may be left out. -/
def Fillable (p : Part σ) (given : Option Json) : Prop :=
  match given with
  | some v => ∃ x, p.takes v x
  | none => p.optional = true

/-- A part is filled in one way only. -/
theorem Filled.unique {p : Part σ} {given : Option Json} {s t t' : σ} (h : p.Filled given s t)
    (h' : p.Filled given s t') : p.get t = p.get t' := by
  cases given with
  | none => exact h.2.trans h'.2.symm
  | some v =>
    have hread := ((p.takes_iff _ _).mpr h).symm.trans ((p.takes_iff _ _).mpr h')
    exact Except.ok.inj hread

theorem Filled.fillable {p : Part σ} {given : Option Json} {s t : σ} (h : p.Filled given s t) :
    p.Fillable given := by
  cases given with
  | none => exact h.1
  | some v => exact ⟨_, h⟩

/-- A part that must not be left out holds the value that is given for it. -/
theorem filled_iff_of_required {p : Part σ} (h : p.optional = false) {given : Option Json} {s t : σ} :
    p.Filled given s t ↔ ∃ v, given = some v ∧ p.takes v (p.get t) := by
  cases given with
  | none => simp [Filled, h]
  | some v => simp [Filled]

/-- What a run through the members of an object makes of a part, when `seen` are the names of those that were
read before it: its name occurs once at most, and not at all if it was seen; the part holds what is given
for it, or what it held before. -/
structure Run (p : Part σ) (ms : List (String × Json)) (s t : σ) (seen seen' : List String) : Prop where
  once : (ms.map Prod.fst).count p.name ≤ 1
  fresh : p.name ∈ seen → p.name ∉ ms.map Prod.fst
  given : ∀ v, ms.lookup p.name = some v → p.takes v (p.get t)
  kept : p.name ∉ ms.map Prod.fst → p.get t = p.get s
  seen : p.name ∈ seen' ↔ p.name ∈ seen ∨ p.name ∈ ms.map Prod.fst

theorem Run.nil (p : Part σ) (s : σ) (seen : List String) : p.Run [] s s seen seen where
  once := Nat.zero_le _
  fresh _ := List.not_mem_nil
  given := nofun
  kept _ := rfl
  seen := by simp

/-- A member of the part's own name. -/
theorem Run.cons {p : Part σ} {ms : List (String × Json)} {s t : σ} {seen seen' : List String} {v : Json}
    {x : p.Value} (h : p.Run ms (p.set x s) t (p.name :: seen) seen') (hv : p.takes v x)
    (hseen : p.name ∉ seen) : p.Run ((p.name, v) :: ms) s t seen seen' := by
  have hrest : p.name ∉ ms.map Prod.fst := h.fresh List.mem_cons_self
  constructor
  · have hcount := List.count_eq_zero.mpr hrest
    rw [List.map_cons, List.count_cons_self]
    omega
  · exact fun hmem => absurd hmem hseen
  · intro w hw
    rw [List.lookup_cons_self] at hw
    cases hw
    rw [h.kept hrest, p.get_set]
    exact hv
  · exact fun hmem => absurd List.mem_cons_self hmem
  · simpa using h.seen

/-- A member of another name. -/
theorem Run.cons_of_ne {p : Part σ} {ms : List (String × Json)} {s s' t : σ} {key : String} {v : Json}
    {seen seen₁ seen' : List String} (h : p.Run ms s' t seen₁ seen') (hname : p.name ≠ key)
    (hget : p.get s' = p.get s) (hseen : p.name ∈ seen₁ ↔ p.name ∈ seen) :
    p.Run ((key, v) :: ms) s t seen seen' := by
  have hmem : p.name ∈ ((key, v) :: ms).map Prod.fst ↔ p.name ∈ ms.map Prod.fst := by simp [hname]
  constructor
  · rw [List.map_cons, List.count_cons_of_ne hname.symm]
    exact h.once
  · rw [hmem, ← hseen]
    exact h.fresh
  · intro w hw
    rw [Keyed.lookup_cons_eq, if_neg hname] at hw
    exact h.given w hw
  · rw [hmem, ← hget]
    exact h.kept
  · rw [hmem, ← hseen]
    exact h.seen

/-- What a run from the blank record fills. -/
theorem Run.filled {p : Part σ} {ms : List (String × Json)} {s t : σ} {seen : List String}
    (h : p.Run ms s t [] seen) (hmissing : p.optional = true ∨ p.name ∈ seen) :
    p.Filled (ms.lookup p.name) s t := by
  cases hlookup : ms.lookup p.name with
  | some v => exact h.given v hlookup
  | none =>
    have habsent := Keyed.lookup_eq_none_iff.mp hlookup
    refine ⟨hmissing.resolve_right fun hseen => ?_, h.kept habsent⟩
    exact habsent ((h.seen.mp hseen).resolve_left List.not_mem_nil)

/-- A run through the members of an object can go on as far as a part is concerned. -/
structure Ready (p : Part σ) (ms : List (String × Json)) (seen : List String) : Prop where
  once : (ms.map Prod.fst).count p.name ≤ 1
  fresh : p.name ∈ seen → p.name ∉ ms.map Prod.fst
  given : ∀ v, ms.lookup p.name = some v → ∃ x, p.takes v x

theorem Ready.tail {p : Part σ} {ms : List (String × Json)} {seen : List String} {v : Json}
    (h : p.Ready ((p.name, v) :: ms) seen) : p.Ready ms (p.name :: seen) := by
  have honce := h.once
  rw [List.map_cons, List.count_cons_self] at honce
  have hrest : p.name ∉ ms.map Prod.fst := List.count_eq_zero.mp (by omega)
  exact ⟨by omega, fun _ => hrest, fun w hw => absurd (Keyed.exists_lookup_iff.mp ⟨w, hw⟩) hrest⟩

theorem Ready.tail_of_ne {p : Part σ} {ms : List (String × Json)} {seen seen₁ : List String}
    {key : String} {v : Json} (h : p.Ready ((key, v) :: ms) seen) (hname : p.name ≠ key)
    (hseen : p.name ∈ seen₁ → p.name ∈ seen) : p.Ready ms seen₁ := by
  have honce := h.once
  rw [List.map_cons, List.count_cons_of_ne hname.symm] at honce
  refine ⟨honce, fun hmem hrest => h.fresh (hseen hmem) (List.mem_cons_of_mem _ hrest), fun w hw => ?_⟩
  refine h.given w ?_
  rw [Keyed.lookup_cons_eq, if_neg hname]
  exact hw

end Part

/-! ## Records made of parts -/

namespace Part

variable {σ : Type}

/-- One value for each part. -/
def Values : List (Part σ) → Type
  | [] => Unit
  | p :: ps => p.Value × Values ps

/-- What the parts of a record hold. -/
def values : (ps : List (Part σ)) → σ → Values ps
  | [], _ => ()
  | p :: ps, s => (p.get s, values ps s)

/-- A record with a value put into one part, for each part. -/
def setEach : (ps : List (Part σ)) → Values ps → σ → List σ
  | [], _, _ => []
  | p :: ps, (x, xs), s => p.set x s :: setEach ps xs s

/-- Values with one of them replaced, for each of them. -/
def replaceEach : (ps : List (Part σ)) → Values ps → Values ps → List (Values ps)
  | [], _, _ => []
  | _ :: ps, (x, xs), (y, ys) => (x, ys) :: (replaceEach ps xs ys).map (y, ·)

theorem values_eq {ps : List (Part σ)} {s t : σ} :
    values ps s = values ps t ↔ ∀ p ∈ ps, p.get s = p.get t := by
  induction ps with
  | nil => exact ⟨nofun, fun _ => rfl⟩
  | cons p ps ih =>
    refine Iff.trans ?_ List.forall_mem_cons.symm
    rw [← ih]
    exact Prod.ext_iff

theorem exists_mem_setEach {ps : List (Part σ)} {p : Part σ} (hp : p ∈ ps) (x : p.Value) (s : σ) :
    ∃ xs, p.set x s ∈ setEach ps xs s := by
  induction ps with
  | nil => cases hp
  | cons q ps ih =>
    rcases List.mem_cons.mp hp with rfl | hp
    · exact ⟨(x, values ps s), List.mem_cons_self⟩
    · obtain ⟨xs, hxs⟩ := ih hp
      exact ⟨(q.get s, xs), List.mem_cons_of_mem _ hxs⟩

/-- Parts of different names are kept apart if a value that is put into one of them
changes this one only. -/
theorem pairwise_apart {ps : List (Part σ)} (hnames : (ps.map Part.name).Nodup)
    (hsets : ∀ xs s, (setEach ps xs s).map (values ps) = replaceEach ps xs (values ps s)) :
    ps.Pairwise Part.Apart := by
  induction ps with
  | nil => exact .nil
  | cons p ps ih =>
    obtain ⟨hname, hnames⟩ := List.nodup_cons.mp hnames
    have hfirst : ∀ x s, values ps (p.set x s) = values ps s := fun x s =>
      (Prod.mk.inj (List.cons.inj (hsets (x, values ps s) s)).1).2
    have hrest : ∀ xs s, (setEach ps xs s).map (values (p :: ps)) =
        (replaceEach ps xs (values ps s)).map (p.get s, ·) := fun xs s =>
      (List.cons.inj (hsets (p.get s, xs) s)).2
    have hkept : ∀ xs s, ∀ t ∈ setEach ps xs s, p.get t = p.get s := by
      intro xs s t ht
      have hmem : values (p :: ps) t ∈ (replaceEach ps xs (values ps s)).map (p.get s, ·) :=
        hrest xs s ▸ List.mem_map_of_mem ht
      obtain ⟨ys, _, hys⟩ := List.mem_map.mp hmem
      exact (Prod.mk.inj hys).1.symm
    refine List.pairwise_cons.mpr ⟨fun q hq => ⟨?_, fun x s => ?_, fun x s => ?_⟩, ih hnames ?_⟩
    · exact fun heq => hname (heq ▸ List.mem_map_of_mem hq)
    · obtain ⟨xs, hxs⟩ := exists_mem_setEach hq x s
      exact hkept xs s _ hxs
    · exact values_eq.mp (hfirst x s) q hq
    · intro xs s
      have hdrop : ∀ ts : List σ, (ts.map (values (p :: ps))).map Prod.snd = ts.map (values ps) :=
        fun ts => List.map_map (f := values (p :: ps)) (g := Prod.snd)
      calc (setEach ps xs s).map (values ps)
          = ((setEach ps xs s).map (values (p :: ps))).map Prod.snd := (hdrop _).symm
        _ = ((replaceEach ps xs (values ps s)).map (p.get s, ·)).map Prod.snd := congrArg _ (hrest xs s)
        _ = replaceEach ps xs (values ps s) := List.map_map.trans (List.map_id _)

end Part

/-- A record is made of parts that are kept apart and make up all of it. -/
structure Record.Made {σ : Type} (r : Record σ) (parts : List (Part σ)) : Prop where
  members : r.members = parts.map Part.member
  apart : parts.Pairwise Part.Apart
  whole : ∀ s t : σ, (∀ p ∈ parts, p.get s = p.get t) → s = t

/-- **A record is made of parts** if it can be made of their values, and a value that is put into one part
changes this part only. -/
theorem Record.made_of_values {σ : Type} {r : Record σ} {parts : List (Part σ)}
    (hmembers : r.members = parts.map Part.member) (hnames : (parts.map Part.name).Nodup)
    (make : Part.Values parts → σ) (hmake : ∀ s, make (Part.values parts s) = s)
    (hsets : ∀ xs s, (Part.setEach parts xs s).map (Part.values parts) =
      Part.replaceEach parts xs (Part.values parts s)) : r.Made parts where
  members := hmembers
  apart := Part.pairwise_apart hnames hsets
  whole s t h := by rw [← hmake s, ← hmake t, Part.values_eq.mpr h]

namespace Document

mutual

/-- Nothing in the document of a value is broken. -/
theorem intact_ofJson (v : Json) : (ofJson v).intact = true := by
  cases v with
  | array items => exact intactItems_ofJsonItems items
  | object members => exact intactMembers_ofJsonMembers members
  | _ => rfl

theorem intactItems_ofJsonItems (items : List Json) : intactItems (ofJsonItems items) = true := by
  cases items with
  | nil => rfl
  | cons v rest =>
    exact Bool.and_eq_true_iff.mpr ⟨intact_ofJson v, intactItems_ofJsonItems rest⟩

theorem intactMembers_ofJsonMembers (members : List (String × Json)) :
    intactMembers (ofJsonMembers members) = true := by
  cases members with
  | nil => rfl
  | cons m rest =>
    exact Bool.and_eq_true_iff.mpr ⟨intact_ofJson m.2, intactMembers_ofJsonMembers rest⟩

end

end Document

namespace Record

variable {σ : Type} {r : Record σ} {parts : List (Part σ)}

namespace Made

variable (h : r.Made parts)
include h

theorem member?_eq (key : String) :
    r.member? key = (parts.find? fun p => p.name = key).map Part.member := by
  have hname : (fun p => decide (p.name = key)) =
      (fun m : Member σ => m.name = key || m.otherNames.contains key) ∘ Part.member :=
    funext fun p => (Bool.or_false _).symm
  rw [member?, h.members, List.find?_map, hname]

theorem apart_of_ne {p q : Part σ} (hp : p ∈ parts) (hq : q ∈ parts) (hne : p ≠ q) : p.Apart q :=
  h.apart.forall hp hq hne

theorem eq_of_name {p q : Part σ} (hp : p ∈ parts) (hq : q ∈ parts) (hname : p.name = q.name) :
    p = q := by
  by_contra hne
  exact (h.apart_of_ne hp hq hne).name hname

/-- **One member** goes into the part of its name, which no member has been read for, or is skipped. -/
theorem readMember_eq_ok_iff {s t : σ} {seen seen' : List String} {key : String} {v : Json} :
    r.readMember (s, seen) (some key, Document.ofJson v) = .ok (t, seen') ↔
      (∃ p ∈ parts, p.name = key ∧ key ∉ seen ∧ ∃ x, p.takes v x ∧ t = p.set x s ∧
        seen' = key :: seen) ∨
      ((∀ p ∈ parts, p.name ≠ key) ∧ t = s ∧ seen' = seen) := by
  simp only [readMember, h.member?_eq]
  cases hfind : parts.find? fun p => p.name = key with
  | none =>
    have hnone : ∀ p ∈ parts, p.name ≠ key := fun p hp => by
      simpa using List.find?_eq_none.mp hfind p hp
    have hno : ¬∃ p ∈ parts, p.name = key ∧ key ∉ seen ∧ ∃ x, p.takes v x ∧ t = p.set x s ∧
        seen' = key :: seen := fun ⟨p, hp, hname, _⟩ => hnone p hp hname
    simp only [Option.map_none, Document.intact_ofJson, if_true, Except.ok.injEq, Prod.mk.injEq,
      hno, false_or]
    exact ⟨fun ⟨hs, hseen⟩ => ⟨hnone, hs.symm, hseen.symm⟩, fun ⟨_, hs, hseen⟩ => ⟨hs.symm, hseen.symm⟩⟩
  | some q =>
    have hq : q ∈ parts := List.mem_of_find?_eq_some hfind
    have hname : q.name = key := by simpa using List.find?_some hfind
    simp only [Option.map_some]
    constructor
    · intro hread
      split at hread
      · cases hread
      · next hseen =>
        obtain ⟨s', hs', heq⟩ := map_eq_ok_iff.mp hread
        obtain ⟨x, hx, rfl⟩ := map_eq_ok_iff.mp hs'
        cases heq
        refine Or.inl ⟨q, hq, hname, ?_, x, (q.takes_iff v x).mp hx, rfl, congrArg (· :: seen) hname⟩
        exact hname ▸ fun hmem => hseen (List.contains_iff_mem.mpr hmem)
    · rintro (⟨p, hp, hpname, hseen, x, hx, rfl, rfl⟩ | ⟨hnone, _⟩)
      · obtain rfl := h.eq_of_name hp hq (hpname.trans hname.symm)
        subst hpname
        split
        · next hmem => exact absurd (List.contains_iff_mem.mp hmem) hseen
        · have hstore : p.member.store (Document.ofJson v) s = .ok (p.set x s) :=
            map_eq_ok_iff.mpr ⟨x, (p.takes_iff v x).mpr hx, rfl⟩
          exact map_eq_ok_iff.mpr ⟨_, hstore, rfl⟩
      · exact absurd hname (hnone q hq)

/-- **A run through the members of an object**, part by part. -/
theorem run_of_foldlM {ms : List (String × Json)} {s t : σ} {seen seen' : List String}
    (hrun : (Document.ofJsonMembers ms).foldlM r.readMember (s, seen) = .ok (t, seen')) :
    ∀ p ∈ parts, p.Run ms s t seen seen' := by
  induction ms generalizing s seen with
  | nil =>
    cases hrun
    exact fun p _ => .nil p _ _
  | cons m rest ih =>
    obtain ⟨key, v⟩ := m
    obtain ⟨⟨s₁, seen₁⟩, hstep, hrest⟩ := bind_eq_ok_iff.mp hrun
    intro p hp
    have hp' := ih hrest p hp
    rcases h.readMember_eq_ok_iff.mp hstep with ⟨q, hq, rfl, hfresh, x, hx, rfl, rfl⟩ | ⟨hnone, rfl, rfl⟩
    · by_cases hname : p.name = q.name
      · obtain rfl := h.eq_of_name hp hq hname
        exact hp'.cons hx hfresh
      · refine hp'.cons_of_ne hname ?_ (List.mem_cons.trans (or_iff_right hname))
        exact (h.apart_of_ne hp hq fun heq => hname (congrArg Part.name heq)).left x s
    · exact hp'.cons_of_ne (hnone p hp) rfl Iff.rfl

/-- A run comes to its end if it can go on for all parts. -/
theorem exists_foldlM {ms : List (String × Json)} {seen : List String}
    (hready : ∀ p ∈ parts, p.Ready ms seen) (s : σ) : ∃ t seen',
      (Document.ofJsonMembers ms).foldlM r.readMember (s, seen) = .ok (t, seen') := by
  induction ms generalizing s seen with
  | nil => exact ⟨s, seen, rfl⟩
  | cons m rest ih =>
    obtain ⟨key, v⟩ := m
    by_cases hpart : ∃ p ∈ parts, p.name = key
    · obtain ⟨p, hp, rfl⟩ := hpart
      obtain ⟨x, hx⟩ := (hready p hp).given v List.lookup_cons_self
      have hfresh : p.name ∉ seen := fun hseen => (hready p hp).fresh hseen List.mem_cons_self
      have hstep : r.readMember (s, seen) (some p.name, Document.ofJson v) =
          .ok (p.set x s, p.name :: seen) :=
        h.readMember_eq_ok_iff.mpr (Or.inl ⟨p, hp, rfl, hfresh, x, hx, rfl, rfl⟩)
      have hrest : ∀ q ∈ parts, q.Ready rest (p.name :: seen) := by
        intro q hq
        by_cases hname : q.name = p.name
        · obtain rfl := h.eq_of_name hq hp hname
          exact (hready q hq).tail
        · exact (hready q hq).tail_of_ne hname fun hmem => (List.mem_cons.mp hmem).resolve_left hname
      obtain ⟨t, seen', hrest⟩ := ih hrest (p.set x s)
      exact ⟨t, seen', bind_eq_ok_iff.mpr ⟨_, hstep, hrest⟩⟩
    · have hnone : ∀ p ∈ parts, p.name ≠ key := fun p hp hname => hpart ⟨p, hp, hname⟩
      have hstep : r.readMember (s, seen) (some key, Document.ofJson v) = .ok (s, seen) :=
        h.readMember_eq_ok_iff.mpr (Or.inr ⟨hnone, rfl, rfl⟩)
      obtain ⟨t, seen', hrest⟩ := ih (fun q hq => (hready q hq).tail_of_ne (hnone q hq) id) s
      exact ⟨t, seen', bind_eq_ok_iff.mpr ⟨_, hstep, hrest⟩⟩

end Made

/-- The names of the parts occur once at most in an object. -/
def Once (parts : List (Part σ)) (ms : List (String × Json)) : Prop :=
  ∀ p ∈ parts, (ms.map Prod.fst).count p.name ≤ 1

/-- An object is read by a run through its members after which no part is missing. -/
theorem readObject_eq_ok_iff_run {ms : List (Option String × Document)} {s : σ} :
    r.readObject ms = .ok s ↔ ∃ seen, ms.foldlM r.readMember (r.blank, []) = .ok (s, seen) ∧
      ∀ m ∈ r.members, m.optional = true ∨ m.name ∈ seen := by
  have hmissing : ∀ seen : List String,
      r.members.find? (fun m => !m.optional && !seen.contains m.name) = none ↔
        ∀ m ∈ r.members, m.optional = true ∨ m.name ∈ seen := by
    intro seen
    rw [List.find?_eq_none]
    refine forall₂_congr fun m _ => ?_
    cases m.optional <;> simp
  rw [readObject, bind_eq_ok_iff]
  constructor
  · rintro ⟨⟨t, seen⟩, hrun, hend⟩
    dsimp only at hend
    split at hend
    · cases hend
    · next hnone =>
      cases hend
      exact ⟨seen, hrun, (hmissing seen).mp hnone⟩
  · rintro ⟨seen, hrun, hall⟩
    refine ⟨(s, seen), hrun, ?_⟩
    dsimp only
    rw [(hmissing seen).mpr hall]
    rfl

namespace Made

variable (h : r.Made parts)
include h

/-- What is read from an object fills the parts. -/
theorem filled_of_readObject {ms : List (String × Json)} {s : σ}
    (hread : r.readObject (Document.ofJsonMembers ms) = .ok s) :
    Once parts ms ∧ ∀ p ∈ parts, p.Filled (ms.lookup p.name) r.blank s := by
  obtain ⟨seen, hrun, hall⟩ := readObject_eq_ok_iff_run.mp hread
  have hparts := h.run_of_foldlM hrun
  refine ⟨fun p hp => (hparts p hp).once, fun p hp => (hparts p hp).filled ?_⟩
  exact hall p.member (h.members ▸ List.mem_map_of_mem hp)

/-- **Which objects are read**: those in which every part can be filled, and none twice. -/
theorem exists_readObject_iff {ms : List (String × Json)} :
    (∃ s, r.readObject (Document.ofJsonMembers ms) = .ok s) ↔
      Once parts ms ∧ ∀ p ∈ parts, p.Fillable (ms.lookup p.name) := by
  constructor
  · rintro ⟨s, hread⟩
    obtain ⟨honce, hfilled⟩ := h.filled_of_readObject hread
    exact ⟨honce, fun p hp => (hfilled p hp).fillable⟩
  · rintro ⟨honce, hfillable⟩
    have hready : ∀ p ∈ parts, p.Ready ms [] := by
      refine fun p hp => ⟨honce p hp, fun hseen => absurd hseen List.not_mem_nil, fun v hv => ?_⟩
      have hp' := hfillable p hp
      rwa [hv] at hp'
    obtain ⟨s, seen, hrun⟩ := h.exists_foldlM hready r.blank
    refine ⟨s, readObject_eq_ok_iff_run.mpr ⟨seen, hrun, ?_⟩⟩
    rw [h.members, List.forall_mem_map]
    intro p hp
    cases hlookup : ms.lookup p.name with
    | none =>
      have hp' := hfillable p hp
      rw [hlookup] at hp'
      exact Or.inl hp'
    | some v =>
      exact Or.inr ((h.run_of_foldlM hrun p hp).seen.mpr (Or.inr (Keyed.exists_lookup_iff.mp ⟨v, hlookup⟩)))

/-- **What is read from an object**: the record whose parts are filled by its members. -/
theorem readObject_eq_ok_iff {ms : List (String × Json)} {s : σ} :
    r.readObject (Document.ofJsonMembers ms) = .ok s ↔
      Once parts ms ∧ ∀ p ∈ parts, p.Filled (ms.lookup p.name) r.blank s := by
  refine ⟨h.filled_of_readObject, fun ⟨honce, hfilled⟩ => ?_⟩
  obtain ⟨t, ht⟩ := h.exists_readObject_iff.mpr ⟨honce, fun p hp => (hfilled p hp).fillable⟩
  have hwhole : s = t := h.whole s t fun p hp =>
    (hfilled p hp).unique ((h.filled_of_readObject ht).2 p hp)
  rw [hwhole, ht]

end Made

/-- Parts that are filled in their order by the items of an array; those at the end may be left out. -/
def InOrder : List (Part σ) → List Json → σ → σ → Prop
  | [], [], s, t => t = s
  | [], _ :: _, _, _ => False
  | p :: ps, [], s, t => p.optional = true ∧ InOrder ps [] s t
  | p :: ps, v :: vs, s, t => ∃ x, p.takes v x ∧ InOrder ps vs (p.set x s) t

/-- **What is read from an array**: the record whose parts are filled by its items in their order. -/
theorem readItems_eq_ok_iff {i : Nat} {items : List Json} {s t : σ} :
    r.readItems .value i (parts.map Part.member) (Document.ofJsonItems items) s = .ok t ↔
      InOrder parts items s t := by
  induction parts generalizing i items s with
  | nil =>
    cases items with
    | nil => simp [readItems, Document.ofJsonItems, InOrder, eq_comm]
    | cons v rest => simp [readItems, Document.ofJsonItems, InOrder]
  | cons p ps ih =>
    cases items with
    | nil =>
      rw [List.map_cons, Document.ofJsonItems, readItems, InOrder, ← ih (i := i + 1), Document.ofJsonItems]
      cases hoptional : p.optional <;> simp [Part.member, hoptional]
    | cons v rest =>
      simp only [List.map_cons, Document.ofJsonItems, readItems, InOrder, bind_eq_ok_iff, Part.member,
        map_eq_ok_iff, ih, ← p.takes_iff, Read.ofJson]
      constructor
      · rintro ⟨s', ⟨x, hx, rfl⟩, hrest⟩
        exact ⟨x, hx, hrest⟩
      · rintro ⟨x, hx, hrest⟩
        exact ⟨p.set x s, ⟨x, hx, rfl⟩, hrest⟩

end Record

/-! ## Records that are written part by part -/

namespace Part

variable {σ : Type}

/-- The members that are written for parts: those that have something to write. -/
def written (ws : List (Part σ × Option Json)) : List (String × Json) :=
  ws.filterMap fun w => w.2.map (w.1.name, ·)

theorem written_none (p : Part σ) (ws : List (Part σ × Option Json)) :
    written ((p, none) :: ws) = written ws := rfl

theorem written_some (p : Part σ) (v : Json) (ws : List (Part σ × Option Json)) :
    written ((p, some v) :: ws) = (p.name, v) :: written ws := rfl

theorem mem_keys_written {ws : List (Part σ × Option Json)} {key : String}
    (h : key ∈ (written ws).map Prod.fst) : key ∈ ws.map fun w => w.1.name := by
  obtain ⟨m, hm, rfl⟩ := List.mem_map.mp h
  obtain ⟨w, hw, hm⟩ := List.mem_filterMap.mp hm
  obtain ⟨v, _, rfl⟩ := Option.map_eq_some_iff.mp hm
  exact List.mem_map_of_mem hw

/-- Each part is written once at most, and what is found under its name is what is written for it. -/
theorem count_and_lookup_written {ws : List (Part σ × Option Json)}
    (hnames : (ws.map fun w => w.1.name).Nodup) {w : Part σ × Option Json} (hw : w ∈ ws) :
    ((written ws).map Prod.fst).count w.1.name ≤ 1 ∧ (written ws).lookup w.1.name = w.2 := by
  induction ws with
  | nil => cases hw
  | cons first rest ih =>
    obtain ⟨p, given⟩ := first
    obtain ⟨hfresh, hrest⟩ := List.nodup_cons.mp hnames
    rcases List.mem_cons.mp hw with rfl | hw'
    · have habsent : p.name ∉ (written rest).map Prod.fst := fun h => hfresh (mem_keys_written h)
      have hcount := List.count_eq_zero.mpr habsent
      cases given with
      | none =>
        rw [written_none, hcount]
        exact ⟨Nat.zero_le 1, Keyed.lookup_eq_none_iff.mpr habsent⟩
      | some v =>
        rw [written_some, List.map_cons, List.count_cons_self, hcount]
        exact ⟨Nat.le_refl 1, List.lookup_cons_self⟩
    · have hne : w.1.name ≠ p.name := fun heq => hfresh (List.mem_map.mpr ⟨w, hw', heq⟩)
      cases given with
      | none => exact ih hrest hw'
      | some v =>
        rw [written_some, List.map_cons, List.count_cons_of_ne hne.symm, Keyed.lookup_cons_eq, if_neg hne]
        exact ih hrest hw'

end Part

/-- The same member under its main name only. -/
def Member.plain {σ : Type} (m : Member σ) : Member σ := { m with otherNames := [] }

namespace Record

variable {σ : Type} {r : Record σ}

/-- **A record is read back** from the members that are written for its parts, if what is written for each is
what it takes, and only what the blank record holds is left out. -/
theorem Made.readObject_written {ws : List (Part σ × Option Json)} (h : r.Made (ws.map Prod.fst)) {s : σ}
    (hfilled : ∀ w ∈ ws, w.1.Filled w.2 r.blank s) :
    r.readObject (Document.ofJsonMembers (Part.written ws)) = .ok s := by
  have hnames : (ws.map fun w => w.1.name).Nodup := by
    have hapart : (ws.map Prod.fst).Pairwise fun p q => p.name ≠ q.name := h.apart.imp Part.Apart.name
    rw [List.pairwise_map] at hapart
    exact List.pairwise_map.mpr hapart
  refine h.readObject_eq_ok_iff.mpr ⟨?_, ?_⟩
  · rw [Once, List.forall_mem_map]
    exact fun w hw => (Part.count_and_lookup_written hnames hw).1
  · rw [List.forall_mem_map]
    intro w hw
    rw [(Part.count_and_lookup_written hnames hw).2]
    exact hfilled w hw

/-- The same record under the main names of its members only. -/
def plain (r : Record σ) : Record σ := { r with members := r.members.map Member.plain }

theorem member?_plain {key : String} (h : key ∉ r.members.flatMap Member.otherNames) :
    r.plain.member? key = (r.member? key).map Member.plain := by
  have hfind : ∀ ms : List (Member σ), (∀ m ∈ ms, key ∉ m.otherNames) →
      (ms.map Member.plain).find? (fun m => m.name = key || m.otherNames.contains key) =
        (ms.find? fun m => m.name = key || m.otherNames.contains key).map Member.plain := by
    intro ms
    induction ms with
    | nil => exact fun _ => rfl
    | cons m ms ih =>
      intro h
      obtain ⟨hm, hms⟩ := List.forall_mem_cons.mp h
      have hplain : (m.plain.name = key || m.plain.otherNames.contains key) = decide (m.name = key) :=
        Bool.or_false _
      have hsame : (m.name = key || m.otherNames.contains key) = decide (m.name = key) := by simp [hm]
      rw [List.map_cons, List.find?_cons, List.find?_cons, hplain, hsame]
      cases decide (m.name = key) with
      | true => rfl
      | false => exact ih hms
  exact hfind r.members fun m hm hkey => h (List.mem_flatMap.mpr ⟨m, hm, hkey⟩)

/-- Other names do not matter for an object that has none of them. -/
theorem readObject_plain {ms : List (String × Json)} {s : σ}
    (h : ∀ key ∈ ms.map Prod.fst, key ∉ r.members.flatMap Member.otherNames) :
    r.plain.readObject (Document.ofJsonMembers ms) = .ok s ↔
      r.readObject (Document.ofJsonMembers ms) = .ok s := by
  have hfold : ∀ state, (Document.ofJsonMembers ms).foldlM r.plain.readMember state =
      (Document.ofJsonMembers ms).foldlM r.readMember state := by
    induction ms with
    | nil => exact fun _ => rfl
    | cons m ms ih =>
      intro state
      obtain ⟨hkey, hkeys⟩ := List.forall_mem_cons.mp h
      have hmember : r.plain.readMember state (some m.1, Document.ofJson m.2) =
          r.readMember state (some m.1, Document.ofJson m.2) := by
        rw [readMember, readMember, member?_plain hkey]
        cases r.member? m.1 <;> rfl
      rw [Document.ofJsonMembers, List.foldlM_cons, List.foldlM_cons, hmember]
      exact bind_congr fun state' => ih hkeys state'
  have hmembers : r.plain.members = r.members.map Member.plain := rfl
  rw [readObject_eq_ok_iff_run, readObject_eq_ok_iff_run, hfold, hmembers]
  simp only [List.forall_mem_map]
  rfl

end Record

end Targeting
