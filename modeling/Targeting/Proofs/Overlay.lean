import Targeting.Proofs.Merging
import Targeting.Proofs.Records
import Targeting.Settings.Format

/-!
# What a text of settings changes

A text of settings gives values to the settings that it names, and leaves all others at their defaults,
whatever else it contains. It can be read if each setting that it names gets a value that the setting takes.

* `Part.Over`, `Record.Made.read_over_iff`: a record read from an object that is laid over another record;
  `Part.Leaf`, `Part.WrittenAs`, `Part.writtenAs_sorted`: what is written for that one;
* `Setting`, `Setting.all`: the settings by their paths, each with the values that it takes;
* `Settings.laidOver_eq_ok_iff`, `Settings.exists_laidOver_iff`: settings read over other settings;
* `Settings.texts`, `Settings.ofJsonText_of_mem_texts`: settings written and read back;
* **`Settings.ofJsonText_overlays`**: the settings of a text.
-/

namespace Targeting

/-! ## Records read over others -/

namespace Part

variable {σ : Type}

/-- What a part is read as over a record `b`: what is given for it, if something is, and otherwise what `b`
has there. -/
structure Over (p : Part σ) (given : Option Json) (b t : σ) : Prop where
  taken : ∀ v, given = some v → p.takes v (p.get t)
  kept : given = none → p.get t = p.get b

/-- A value is written for a part: no object, and one that the part takes. -/
structure Leaf (b : σ) (p : Part σ) (v : Json) : Prop where
  plain : ∀ ms, v ≠ .object ms
  takes : p.takes v (p.get b)

namespace Leaf

variable {b : σ} {α : Type} {name : String}

theorem text {get : σ → String} {set h} : Leaf b (.text name get set h) (.string (get b)) := ⟨nofun, rfl⟩

theorem flag {get : σ → Bool} {set h} : Leaf b (.flag name get set h) (.bool (get b)) := ⟨nofun, rfl⟩

theorem number {kind : String} {get : σ → UInt64} {set h} :
    Leaf b (.number name kind get set h) (.ofUInt64 (get b)) := ⟨nofun, rfl⟩

theorem choice {byName : List (String × α)} {nameOf : α → String} {get : σ → α} {set h}
    (hname : ∀ x, byName.lookup (nameOf x) = some x) :
    Leaf b (.choice name byName get set h) (.string (nameOf (get b))) := ⟨nofun, _, hname _, Or.inl rfl⟩

end Leaf

/-- What is written for a record: in the place of each part a value for this part. -/
structure WrittenAs (parts : List (Part σ)) (b : σ) (v : Json) : Prop where
  object : ∃ ms, v = .object ms ∧ Keyed.Sorted ms
  leaf : ∀ p ∈ parts, ∃ w, v.get? p.name = some w ∧ Leaf b p w

theorem exists_leaf {parts : List (Part σ)} {b : σ} {vs : List Json} (h : List.Forall₂ (Leaf b) parts vs) :
    ∀ p ∈ parts, ∃ v, (p.name, v) ∈ (parts.map Part.name).zip vs ∧ Leaf b p v := by
  induction h with
  | nil => exact nofun
  | cons hleaf _ ih =>
    refine List.forall_mem_cons.mpr ⟨⟨_, List.mem_cons_self, hleaf⟩, fun p hp => ?_⟩
    obtain ⟨v, hv, hp⟩ := ih p hp
    exact ⟨v, List.mem_cons_of_mem _ hv, hp⟩

/-- **What is written for a record with sorted keys**, one value for each part. -/
theorem writtenAs_sorted {parts : List (Part σ)} {b : σ} {vs : List Json}
    (hnames : (parts.map Part.name).Nodup) (hleaves : List.Forall₂ (Leaf b) parts vs) :
    WrittenAs parts b (.sorted ((parts.map Part.name).zip vs)) where
  object := ⟨_, rfl, Keyed.sorted_ofList _⟩
  leaf p hp := by
    have hkeys : (((parts.map Part.name).zip vs).map Prod.fst).Nodup := by
      rwa [List.map_fst_zip (by rw [List.length_map, hleaves.length_eq])]
    obtain ⟨v, hv, hleaf⟩ := exists_leaf hleaves p hp
    have hlookup := (Keyed.mem_iff_lookup (Keyed.sorted_ofList _).nodup).mp
      ((Keyed.mem_ofList_iff hkeys).mpr hv)
    exact ⟨v, hlookup, hleaf⟩

theorem takes_unique {p : Part σ} {v : Json} {x y : p.Value} (hx : p.takes v x) (hy : p.takes v y) :
    x = y :=
  Except.ok.inj (((p.takes_iff v x).mpr hx).symm.trans ((p.takes_iff v y).mpr hy))

/-- What is written for a part takes its place, unless another value is laid over it. -/
theorem takes_over_iff {p : Part σ} {given : Option Json} {b t : σ} {w : Json} (hw : Leaf b p w) :
    p.takes (Json.overlaid given w) (p.get t) ↔ p.Over given b t := by
  cases given with
  | none =>
    constructor
    · exact fun h => ⟨fun v hv => absurd hv.symm (Option.some_ne_none v), fun _ => takes_unique h hw.takes⟩
    · intro h
      rw [h.kept rfl]
      exact hw.takes
  | some v =>
    rw [Json.overlaid, Option.elim_some, Json.laidOver_of_not_object hw.plain]
    constructor
    · exact fun h =>
        ⟨fun _ hv => Option.some.inj hv ▸ h, fun hnone => absurd hnone (Option.some_ne_none v)⟩
    · exact fun h => h.taken v rfl

theorem exists_takes_over_iff {p : Part σ} {given : Option Json} {b : σ} {w : Json} (hw : Leaf b p w) :
    (∃ x, p.takes (Json.overlaid given w) x) ↔ ∀ v, given = some v → ∃ x, p.takes v x := by
  cases given with
  | none => simpa [Json.overlaid] using ⟨_, hw.takes⟩
  | some v => simp [Json.overlaid, Json.laidOver_of_not_object hw.plain]

/-- What is written for a part gives it, over any record. -/
theorem Leaf.over {p : Part σ} {b : σ} {w : Json} (hw : Leaf b p w) (c : σ) : p.Over (some w) c b :=
  ⟨fun _ heq => Option.some.inj heq ▸ hw.takes, nofun⟩

end Part

namespace Json

/-- Nothing is given, or an object with sorted keys. -/
def Layer (given : Option Json) : Prop := ∀ v, given = some v → ∃ ms, v = .object ms ∧ Keyed.Sorted ms

/-- An object with another one laid over it: what is found there, and that its keys are sorted. -/
theorem exists_overlaid_object {given : Option Json} (hgiven : Layer given) {below : List (String × Json)}
    (hbelow : Keyed.Sorted below) :
    ∃ ms, overlaid given (.object below) = .object ms ∧ Keyed.Sorted ms ∧
      ∀ key w, below.lookup key = some w → ms.lookup key = some (overlaid (given.bind (get? key)) w) := by
  cases given with
  | none => exact ⟨below, rfl, hbelow, fun _ _ h => h⟩
  | some v =>
    obtain ⟨sub, rfl, hsub⟩ := hgiven v rfl
    exact ⟨membersOver sub below, rfl, sorted_membersOver sub hbelow,
      fun key w h => lookup_membersOver_of_some hsub.nodup h⟩

end Json

namespace Record.Made

variable {σ : Type} {r : Record σ} {parts : List (Part σ)}

theorem once_of_sorted {ms : List (String × Json)} (h : Keyed.Sorted ms) : Once parts ms :=
  fun _ _ => List.nodup_iff_count_le_one.mp h.nodup _

variable (h : r.Made parts) (hrequired : ∀ p ∈ parts, p.optional = false)
include h hrequired

/-- What is read from an object with sorted keys in which no part is missing. -/
theorem readObject_sorted_iff {ms : List (String × Json)} (hms : Keyed.Sorted ms) {t : σ} :
    r.readObject (Document.ofJsonMembers ms) = .ok t ↔
      ∀ p ∈ parts, ∃ v, ms.lookup p.name = some v ∧ p.takes v (p.get t) := by
  rw [h.readObject_eq_ok_iff, and_iff_right (once_of_sorted hms)]
  exact forall₂_congr fun p hp => Part.filled_iff_of_required (hrequired p hp)

theorem exists_readObject_sorted_iff {ms : List (String × Json)} (hms : Keyed.Sorted ms) :
    (∃ t, r.readObject (Document.ofJsonMembers ms) = .ok t) ↔
      ∀ p ∈ parts, ∃ v, ms.lookup p.name = some v ∧ ∃ x, p.takes v x := by
  rw [h.exists_readObject_iff, and_iff_right (once_of_sorted hms)]
  refine forall₂_congr fun p hp => ?_
  cases ms.lookup p.name with
  | none => simp [Part.Fillable, hrequired p hp]
  | some v => simp [Part.Fillable]

/-- **A record read over another one**: each part as it is given, or as the other record has it. -/
theorem read_over_iff {b : σ} {v : Json} (hv : Part.WrittenAs parts b v) {given : Option Json}
    (hgiven : Json.Layer given) {t : σ} :
    Read.ofJson (r.read .value) (Json.overlaid given v) = .ok t ↔
      ∀ p ∈ parts, p.Over (given.bind (Json.get? p.name)) b t := by
  obtain ⟨below, rfl, hbelow⟩ := hv.object
  obtain ⟨ms, hover, hms, hlookup⟩ := Json.exists_overlaid_object hgiven hbelow
  rw [hover]
  refine (h.readObject_sorted_iff hrequired hms).trans (forall₂_congr fun p hp => ?_)
  obtain ⟨w, hw, hleaf⟩ := hv.leaf p hp
  rw [hlookup p.name w hw, ← Part.takes_over_iff hleaf]
  simp

/-- A record can be read over another one if each part takes what is given for it. -/
theorem exists_read_over_iff {b : σ} {v : Json} (hv : Part.WrittenAs parts b v) {given : Option Json}
    (hgiven : Json.Layer given) :
    (∃ t, Read.ofJson (r.read .value) (Json.overlaid given v) = .ok t) ↔
      ∀ p ∈ parts, ∀ w, given.bind (Json.get? p.name) = some w → ∃ x, p.takes w x := by
  obtain ⟨below, rfl, hbelow⟩ := hv.object
  obtain ⟨ms, hover, hms, hlookup⟩ := Json.exists_overlaid_object hgiven hbelow
  rw [hover]
  refine (h.exists_readObject_sorted_iff hrequired hms).trans (forall₂_congr fun p hp => ?_)
  obtain ⟨w, hw, hleaf⟩ := hv.leaf p hp
  rw [hlookup p.name w hw, ← Part.exists_takes_over_iff hleaf]
  simp

end Record.Made

/-! ## The sections -/

namespace WarehouseSettings

/-- The settings of the warehouse. -/
def parts : List (Part WarehouseSettings) :=
  [.choice "dialect" Dialect.byName dialect (fun x w => { w with dialect := x }) fun _ _ => rfl,
    .text "connection_id" connection (fun x w => { w with connection := x }) fun _ _ => rfl,
    .number "query_timeout_secs" "u64" timeoutSeconds (fun x w => { w with timeoutSeconds := x })
      fun _ _ => rfl]

theorem made : record.Made parts :=
  Record.made_of_values rfl (by decide) (fun (dialect, connection, timeout, _) => ⟨dialect, connection, timeout⟩)
    (fun _ => rfl) fun _ _ => rfl

theorem required : ∀ p ∈ parts, p.optional = false := by simp [parts, Part.choice, Part.text, Part.number]

theorem writtenAs (w : WarehouseSettings) : Part.WrittenAs parts w w.toJson :=
  Part.writtenAs_sorted (by decide)
    (.cons (.choice fun d => by cases d <;> rfl) (.cons .text (.cons .number .nil)))

end WarehouseSettings

namespace CompilerSettings

/-- The settings of the compiler. -/
def parts : List (Part CompilerSettings) :=
  [.choice "value_mode" ValueMode.byName valueMode (fun x c => { c with valueMode := x }) fun _ _ => rfl,
    .choice "grouping" Grouping.byName grouping (fun x c => { c with grouping := x }) fun _ _ => rfl,
    .choice "join_strategy" JoinStrategy.byName joinStrategy (fun x c => { c with joinStrategy := x })
      fun _ _ => rfl,
    .number "preview_limit" "usize" previewLimit (fun x c => { c with previewLimit := x }) fun _ _ => rfl,
    .text "default_join_key" defaultJoinKey (fun x c => { c with defaultJoinKey := x }) fun _ _ => rfl,
    .text "parent_marker_field" parentMarker (fun x c => { c with parentMarker := x }) fun _ _ => rfl,
    .text "child_marker_field" childMarker (fun x c => { c with childMarker := x }) fun _ _ => rfl,
    .flag "strict_operators" strictOperators (fun x c => { c with strictOperators := x }) fun _ _ => rfl]

theorem made : record.Made parts :=
  Record.made_of_values rfl (by decide)
    (fun (valueMode, grouping, joinStrategy, limit, key, parent, child, strict, _) =>
      ⟨valueMode, grouping, joinStrategy, limit, key, parent, child, strict⟩)
    (fun _ => rfl) fun _ _ => rfl

theorem required : ∀ p ∈ parts, p.optional = false := by
  simp [parts, Part.choice, Part.text, Part.number, Part.flag]

theorem writtenAs (c : CompilerSettings) : Part.WrittenAs parts c c.toJson :=
  Part.writtenAs_sorted (by decide)
    (.cons (.choice fun m => by cases m <;> rfl) (.cons (.choice fun g => by cases g <;> rfl)
      (.cons (.choice fun j => by cases j <;> rfl) (.cons .number (.cons .text (.cons .text
        (.cons .text (.cons .flag .nil))))))))

end CompilerSettings

namespace CohortSettings

/-- The settings of cohorts. -/
def parts : List (Part CohortSettings) :=
  [.number "count_ttl_secs" "u64" countSeconds (fun x c => { c with countSeconds := x }) fun _ _ => rfl]

theorem made : record.Made parts :=
  Record.made_of_values rfl (by decide) (fun (seconds, _) => ⟨seconds⟩) (fun _ => rfl) fun _ _ => rfl

theorem required : ∀ p ∈ parts, p.optional = false := by simp [parts, Part.number]

theorem writtenAs (c : CohortSettings) : Part.WrittenAs parts c c.toJson :=
  Part.writtenAs_sorted (by decide) (.cons .number .nil)

end CohortSettings

/-! ## All settings -/

namespace Settings

/-- The settings outside the sections. -/
def ownParts : List (Part Settings) :=
  [.flag "debug" debug (fun x s => { s with debug := x }) fun _ _ => rfl,
    .text "log_level" logLevel (fun x s => { s with logLevel := x }) fun _ _ => rfl]

/-- The sections. -/
def sections : List (Part Settings) :=
  [.reading "warehouse" (WarehouseSettings.record.read .value) warehouse
      (fun x s => { s with warehouse := x }) fun _ _ => rfl,
    .reading "compiler" (CompilerSettings.record.read .value) compiler
      (fun x s => { s with compiler := x }) fun _ _ => rfl,
    .reading "cohort" (CohortSettings.record.read .value) cohort
      (fun x s => { s with cohort := x }) fun _ _ => rfl]

theorem made : record.Made (ownParts ++ sections) :=
  Record.made_of_values rfl (by decide)
    (fun (debug, logLevel, warehouse, compiler, cohort, _) => ⟨debug, logLevel, warehouse, compiler, cohort⟩)
    (fun _ => rfl) fun _ _ => rfl

theorem required : ∀ p ∈ ownParts ++ sections, p.optional = false := by
  simp [ownParts, sections, Part.flag, Part.text, Part.reading]

end Settings

/-- A setting: its path in a text of settings, the values that it takes there, and its value in settings. -/
structure Setting where
  path : List String
  Value : Type
  takes : Json → Value → Prop
  get : Settings → Value

namespace Setting

/-- A part of a section as a setting. -/
def ofPart {σ : Type} (path : List String) (view : Settings → σ) (p : Part σ) : Setting where
  path := path ++ [p.name]
  Value := p.Value
  takes := p.takes
  get s := p.get (view s)

/-- All settings. -/
def all : List Setting :=
  Settings.ownParts.map (ofPart [] id) ++
    WarehouseSettings.parts.map (ofPart ["warehouse"] Settings.warehouse) ++
    CompilerSettings.parts.map (ofPart ["compiler"] Settings.compiler) ++
    CohortSettings.parts.map (ofPart ["cohort"] Settings.cohort)

/-- The value of a setting in `t` is the one that a value gives for it, if it gives one, and otherwise the
one that it has in `b`. -/
structure Over (x : Setting) (v : Json) (b t : Settings) : Prop where
  taken : ∀ w, v.at? x.path = some w → x.takes w (x.get t)
  kept : v.at? x.path = none → x.get t = x.get b

theorem forall_mem_all_iff {P : Setting → Prop} : (∀ x ∈ all, P x) ↔
    (∀ p ∈ Settings.ownParts, P (ofPart [] id p)) ∧
    (∀ p ∈ WarehouseSettings.parts, P (ofPart ["warehouse"] Settings.warehouse p)) ∧
    (∀ p ∈ CompilerSettings.parts, P (ofPart ["compiler"] Settings.compiler p)) ∧
    ∀ p ∈ CohortSettings.parts, P (ofPart ["cohort"] Settings.cohort p) := by
  simp only [all, List.forall_mem_append, List.forall_mem_map, and_assoc]

theorem at?_ofPart {σ : Type} {view : Settings → σ} {p : Part σ} {v : Json} :
    v.at? (ofPart [] view p).path = v.get? p.name := by
  simp [ofPart, Json.at?]

theorem at?_ofPart_section {σ : Type} {name : String} {view : Settings → σ} {p : Part σ} {v : Json} :
    v.at? (ofPart [name] view p).path = (v.get? name).bind (Json.get? p.name) := by
  simp [ofPart, Json.at?]

theorem over_ofPart_iff {σ : Type} {path : List String} {view : Settings → σ} {p : Part σ} {v : Json}
    {b t : Settings} {given : Option Json} (h : v.at? (ofPart path view p).path = given) :
    (ofPart path view p).Over v b t ↔ p.Over given (view b) (view t) := by
  subst h
  exact ⟨fun h => ⟨h.taken, h.kept⟩, fun h => ⟨h.taken, h.kept⟩⟩

end Setting

/-- A value that may be a text of settings: an object in which every section that is there is an object. -/
structure Json.Sectioned (v : Json) : Prop where
  object : ∃ ms, v = .object ms
  sections : ∀ name ∈ ["warehouse", "compiler", "cohort"], ∀ w, v.get? name = some w →
    ∃ ms, w = .object ms

namespace Settings

theorem layer_section {v : Json} (hv : v.Ordered) (h : v.Sectioned) {name : String}
    (hname : name ∈ ["warehouse", "compiler", "cohort"]) : Json.Layer (v.get? name) := by
  intro w hw
  obtain ⟨ms, rfl⟩ := h.object
  obtain ⟨sub, rfl⟩ := h.sections name hname w hw
  exact ⟨sub, rfl, (Json.ordered_of_lookup hv.2 hw).1⟩

theorem ownParts_leaf (b : Settings) :
    ∀ p ∈ ownParts, ∃ w, b.toJson.get? p.name = some w ∧ Part.Leaf b p w := by
  simp only [ownParts, List.forall_mem_cons, List.not_mem_nil, false_implies, implies_true, and_true]
  exact ⟨⟨_, rfl, .flag⟩, ⟨_, rfl, .text⟩⟩

/-- The settings that are read when a value is laid over other settings. -/
def laidOver (b : Settings) (v : Json) : Except Fault Settings :=
  Read.ofJson (record.read .value) (v.laidOver b.toJson)

/-- The object that is read when a value is laid over settings. -/
theorem exists_laidOver_object (b : Settings) {v : Json} (hv : v.Ordered) (h : v.Sectioned) :
    ∃ ms, laidOver b v = record.readObject (Document.ofJsonMembers ms) ∧ Keyed.Sorted ms ∧
      ∀ key w, b.toJson.get? key = some w → ms.lookup key = some (Json.overlaid (v.get? key) w) := by
  obtain ⟨own, rfl⟩ := h.object
  have hlayer : Json.Layer (some (.object own)) := by
    rintro _ ⟨⟩
    exact ⟨own, rfl, hv.1⟩
  obtain ⟨ms, hover, hms, hlookup⟩ := Json.exists_overlaid_object hlayer (Keyed.sorted_ofList _)
  refine ⟨ms, ?_, hms, hlookup⟩
  exact congrArg (Read.ofJson (record.read .value)) hover

section

variable {σ : Type} {r : Record σ} {parts : List (Part σ)} {name : String} {view : Settings → σ}
  {set : σ → Settings → Settings} {hset : ∀ x s, view (set x s) = x} {v w : Json} {b : Settings}
  {ms : List (String × Json)}

/-- A section is read over another one as its settings are. -/
theorem section_over_iff (hmade : r.Made parts) (hrequired : ∀ p ∈ parts, p.optional = false)
    (hwritten : Part.WrittenAs parts (view b) w) (hlayer : Json.Layer (v.get? name))
    (hlookup : ms.lookup name = some (Json.overlaid (v.get? name) w)) {t : Settings} :
    (∃ u, ms.lookup name = some u ∧ (Part.reading name (r.read .value) view set hset).takes u (view t)) ↔
      ∀ p ∈ parts, (Setting.ofPart [name] view p).Over v b t := by
  simp only [Setting.over_ofPart_iff Setting.at?_ofPart_section]
  rw [← hmade.read_over_iff hrequired hwritten hlayer, hlookup]
  simp [Part.reading]

/-- A section can be read over another one if its settings can. -/
theorem exists_section_over_iff (hmade : r.Made parts) (hrequired : ∀ p ∈ parts, p.optional = false)
    (hwritten : Part.WrittenAs parts (view b) w) (hlayer : Json.Layer (v.get? name))
    (hlookup : ms.lookup name = some (Json.overlaid (v.get? name) w)) :
    (∃ u, ms.lookup name = some u ∧ ∃ x, (Part.reading name (r.read .value) view set hset).takes u x) ↔
      ∀ p ∈ parts, ∀ u, v.at? (Setting.ofPart [name] view p).path = some u → ∃ x, p.takes u x := by
  simp only [Setting.at?_ofPart_section]
  rw [← hmade.exists_read_over_iff hrequired hwritten hlayer, hlookup]
  simp [Part.reading]

end

section

variable {v : Json} (hv : v.Ordered) (h : v.Sectioned) (b : Settings)
include hv h

/-- **Settings read over other settings**: each setting as it is given, or as the other settings have it. -/
theorem laidOver_eq_ok_iff {t : Settings} : laidOver b v = .ok t ↔ ∀ x ∈ Setting.all, x.Over v b t := by
  obtain ⟨ms, hread, hms, hlookup⟩ := exists_laidOver_object b hv h
  rw [hread, made.readObject_sorted_iff required hms, List.forall_mem_append, Setting.forall_mem_all_iff]
  refine and_congr (forall₂_congr fun p hp => ?_) ?_
  · obtain ⟨w, hw, hleaf⟩ := ownParts_leaf b p hp
    rw [Setting.over_ofPart_iff Setting.at?_ofPart, hlookup p.name w hw]
    exact Iff.trans (by simp) (Part.takes_over_iff hleaf)
  · simp only [sections, List.forall_mem_cons, List.not_mem_nil, false_implies, implies_true, and_true]
    exact and_congr
      (section_over_iff WarehouseSettings.made WarehouseSettings.required b.warehouse.writtenAs
        (layer_section hv h (by decide)) (hlookup _ _ rfl))
      (and_congr
        (section_over_iff CompilerSettings.made CompilerSettings.required b.compiler.writtenAs
          (layer_section hv h (by decide)) (hlookup _ _ rfl))
        (section_over_iff CohortSettings.made CohortSettings.required b.cohort.writtenAs
          (layer_section hv h (by decide)) (hlookup _ _ rfl)))

/-- Settings can be read over other settings if each setting takes what is given for it. -/
theorem exists_laidOver_iff : (∃ t, laidOver b v = .ok t) ↔
    ∀ x ∈ Setting.all, ∀ w, v.at? x.path = some w → ∃ a, x.takes w a := by
  obtain ⟨ms, hread, hms, hlookup⟩ := exists_laidOver_object b hv h
  rw [hread, made.exists_readObject_sorted_iff required hms, List.forall_mem_append,
    Setting.forall_mem_all_iff]
  refine and_congr (forall₂_congr fun p hp => ?_) ?_
  · obtain ⟨w, hw, hleaf⟩ := ownParts_leaf b p hp
    rw [Setting.at?_ofPart, hlookup p.name w hw]
    exact Iff.trans (by simp) (Part.exists_takes_over_iff hleaf)
  · simp only [sections, List.forall_mem_cons, List.not_mem_nil, false_implies, implies_true, and_true]
    exact and_congr
      (exists_section_over_iff WarehouseSettings.made WarehouseSettings.required b.warehouse.writtenAs
        (layer_section hv h (by decide)) (hlookup _ _ rfl))
      (and_congr
        (exists_section_over_iff CompilerSettings.made CompilerSettings.required b.compiler.writtenAs
          (layer_section hv h (by decide)) (hlookup _ _ rfl))
        (exists_section_over_iff CohortSettings.made CohortSettings.required b.cohort.writtenAs
          (layer_section hv h (by decide)) (hlookup _ _ rfl)))

end

/-! ## Settings written and read back -/

/-- All settings in the order in which they are declared. -/
def declared (s : Settings) : Json :=
  .object
    [("debug", .bool s.debug), ("log_level", .string s.logLevel),
      ("warehouse", .object
        [("dialect", .string s.warehouse.dialect.name), ("connection_id", .string s.warehouse.connection),
          ("query_timeout_secs", .ofUInt64 s.warehouse.timeoutSeconds)]),
      ("compiler", .object
        [("value_mode", .string s.compiler.valueMode.name), ("grouping", .string s.compiler.grouping.name),
          ("join_strategy", .string s.compiler.joinStrategy.name),
          ("preview_limit", .ofUInt64 s.compiler.previewLimit),
          ("default_join_key", .string s.compiler.defaultJoinKey),
          ("parent_marker_field", .string s.compiler.parentMarker),
          ("child_marker_field", .string s.compiler.childMarker),
          ("strict_operators", .bool s.compiler.strictOperators)]),
      ("cohort", .object [("count_ttl_secs", .ofUInt64 s.cohort.countSeconds)])]

/-- The texts of settings: compact or over several lines, in the order of their declaration or sorted. -/
def texts (s : Settings) : List String :=
  [s.declared.compact, s.declared.pretty, s.toJson.compact, s.toJson.pretty]

theorem ordered_toJson (s : Settings) : s.toJson.Ordered := by
  refine Json.ordered_sorted ?_
  simp only [List.forall_mem_cons, List.not_mem_nil, false_implies, implies_true, and_true]
  exact ⟨trivial, trivial, Json.ordered_sorted (by simp [Json.Ordered, Json.ofUInt64]),
    Json.ordered_sorted (by simp [Json.Ordered, Json.ofUInt64]),
    Json.ordered_sorted (by simp [Json.Ordered, Json.ofUInt64])⟩

theorem whole_toJson (s : Settings) : s.toJson.Whole := by
  refine Json.whole_sorted ?_
  simp only [List.forall_mem_cons, List.not_mem_nil, false_implies, implies_true, and_true]
  exact ⟨trivial, trivial, Json.whole_sorted (by simp [Json.Whole, Json.ofUInt64]),
    Json.whole_sorted (by simp [Json.Whole, Json.ofUInt64]),
    Json.whole_sorted (by simp [Json.Whole, Json.ofUInt64])⟩

theorem whole_declared (s : Settings) : s.declared.Whole := by
  simp [declared, Json.Whole, Json.WholeMembers, Json.ofUInt64]

/-- A text of settings has the value that they are written as. -/
theorem parse?_of_mem_texts {s : Settings} {text : String} (h : text ∈ s.texts) :
    Json.parse? text = some s.toJson := by
  have hdeclared : (Document.ofJson s.declared).toJson? Document.deepest = some s.toJson := rfl
  have hdepth : s.toJson.depth ≤ Document.deepest := show 2 ≤ 127 by decide
  simp only [texts, List.mem_cons, List.not_mem_nil, or_false] at h
  rcases h with rfl | rfl | rfl | rfl
  · rw [Json.parse?, Document.ofText_compact s.whole_declared]
    exact hdeclared
  · rw [Json.parse?, Document.ofText_pretty s.whole_declared]
    exact hdeclared
  · exact Json.parse?_of_document s.ordered_toJson hdepth (Document.ofText_compact s.whole_toJson)
  · exact Json.parse?_of_document s.ordered_toJson hdepth (Document.ofText_pretty s.whole_toJson)

theorem sectioned_toJson (s : Settings) : s.toJson.Sectioned where
  object := ⟨_, rfl⟩
  sections := by
    simp only [List.forall_mem_cons, List.not_mem_nil, false_implies, implies_true, and_true]
    refine ⟨?_, ?_, ?_⟩ <;> rintro _ ⟨⟩ <;> exact ⟨_, rfl⟩

/-- A section gives all of its settings. -/
theorem over_section {σ : Type} {parts : List (Part σ)} {name : String} {view : Settings → σ}
    {s : Settings} {w : Json} (hwritten : Part.WrittenAs parts (view s) w)
    (hget : s.toJson.get? name = some w) (b : Settings) :
    ∀ p ∈ parts, (Setting.ofPart [name] view p).Over s.toJson b s := by
  intro p hp
  obtain ⟨u, hu, hleaf⟩ := hwritten.leaf p hp
  rw [Setting.over_ofPart_iff Setting.at?_ofPart_section, hget, Option.bind_some, hu]
  exact hleaf.over (view b)

/-- Settings give all settings. -/
theorem over_toJson (s b : Settings) : ∀ x ∈ Setting.all, x.Over s.toJson b s := by
  refine Setting.forall_mem_all_iff.mpr ⟨fun p hp => ?_, over_section s.warehouse.writtenAs rfl b,
    over_section s.compiler.writtenAs rfl b, over_section s.cohort.writtenAs rfl b⟩
  obtain ⟨u, hu, hleaf⟩ := ownParts_leaf s p hp
  rw [Setting.over_ofPart_iff Setting.at?_ofPart, hu]
  exact hleaf.over b

/-- The settings that are read from a text of settings. -/
theorem ofJsonText_of_mem_texts {s : Settings} {text : String} (h : text ∈ s.texts) :
    ofJsonText text = .ok s := by
  rw [ofJsonText, parse?_of_mem_texts h, ofParsed, mapError_eq_ok_iff]
  exact (laidOver_eq_ok_iff s.ordered_toJson s.sectioned_toJson {}).mpr (s.over_toJson {})

/-! ## Texts of settings -/

/-- A text of the value `v` changes the settings that `v` names, and no others, where of several members of one
name the last is meant. A second time it changes nothing: neither laid over the merged value nor over the
settings that were read. -/
structure Overlays (text : String) (v : Json) : Prop where
  last : ∀ path, Option.Rel (fun d w => d.toJson? (Document.deepest - path.length) = some w)
    ((Document.ofText text).root.at? path) (v.at? path)
  readable : (∃ t, ofJsonText text = .ok t) ↔
    ∀ x ∈ Setting.all, ∀ w, v.at? x.path = some w → ∃ a, x.takes w a
  read : ∀ t, ofJsonText text = .ok t ↔ ∀ x ∈ Setting.all, x.Over v {} t
  merged : v.laidOver (v.laidOver (toJson {})) = v.laidOver (toJson {})
  settled : ∀ t, ofJsonText text = .ok t → laidOver t v = .ok t

/-- **A text of settings changes what it names**, and the texts of settings are read as these settings. -/
theorem ofJsonText_overlays {text : String} {v : Json} (hparse : Json.parse? text = some v)
    (hv : v.Sectioned) :
    Overlays text v ∧ ∀ t : Settings, ∀ written ∈ t.texts, ofJsonText written = .ok t := by
  have hordered := Json.ordered_of_parse? hparse
  have hread : ∀ t, ofJsonText text = .ok t ↔ laidOver {} v = .ok t := by
    intro t
    rw [ofJsonText, hparse, ofParsed, mapError_eq_ok_iff]
    rfl
  have hover := fun t => (hread t).trans (laidOver_eq_ok_iff hordered hv {})
  have hagain := Json.laidOver_laidOver hordered (ordered_toJson {})
  refine ⟨⟨Json.at?_of_parse? hparse, ?_, hover, hagain, fun t ht => ?_⟩,
    fun _ _ => ofJsonText_of_mem_texts⟩
  · rw [exists_congr hread]
    exact exists_laidOver_iff hordered hv {}
  · refine (laidOver_eq_ok_iff hordered hv t).mpr fun x hx => ?_
    exact ⟨((hover t).mp ht x hx).taken, fun _ => rfl⟩

/-- Settings of both levels among members of other names. -/
def mixed : Json :=
  .object [("compiler", .object [("grouping", .string "precedence"), ("spacing", .array [])]),
    ("debug", .bool true), ("other", .object [("debug", .null)])]

theorem ofJsonText_overlays_mixed :
    Overlays mixed.compact mixed ∧
      ofJsonText mixed.compact = .ok { debug := true, compiler := { grouping := .precedence } } := by
  have hparse : Json.parse? mixed.compact = some mixed := by
    have hwhole : mixed.Whole := by simp [mixed, Json.Whole, Json.WholeMembers, Json.WholeItems]
    rw [Json.parse?, Document.ofText_compact hwhole]
    rfl
  have hv : mixed.Sectioned := by
    refine ⟨⟨_, rfl⟩, ?_⟩
    simp only [List.forall_mem_cons, List.not_mem_nil, false_implies, implies_true, and_true]
    refine ⟨?_, ?_, ?_⟩
    · intro w hw
      cases hw
    · intro w hw
      cases hw
      exact ⟨_, rfl⟩
    · intro w hw
      cases hw
  refine ⟨(ofJsonText_overlays hparse hv).1, ?_⟩
  rw [ofJsonText, hparse]
  rfl

end Settings

end Targeting
