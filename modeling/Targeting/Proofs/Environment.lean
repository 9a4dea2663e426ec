import Targeting.Proofs.Overlay
import Targeting.Proofs.Wording
import Targeting.Settings.Environment

/-!
# What the environment changes

Eight settings have a variable of the environment each. A variable changes its own setting only, and only to
the value that its text gives; a text that gives none leaves the setting as it is. That holds of all variables
but the two that are for flags: there each text that does not set the flag clears it, whether or not it is a
word for that.

* `uint64?_eq_some_iff`, `Dialect.ofName?_eq_some_iff`, `isYes_iff`, …: the texts that are read as values;
* `Variable`, `Variable.all`: the variables, each with its setting and what its texts mean;
* `Variable.get_foldl`, `Variable.foldl_kept`: variables applied one after the other;
* `Settings.Overridden`, `Settings.Decided`: what the variables change, as documented and as they are read;
* **`Settings.override_decided`**: what an environment changes, and when it is what is documented.
-/

namespace Targeting

/-! ## The texts of values -/

/-- A choice is read from each of its names, if they are apart and no white space is in them. -/
theorem lookup_trimmed_eq_some_iff {α : Type} {names : List (String × α)}
    (hkeys : (names.map Prod.fst).Nodup) (hsolid : ∀ p ∈ names, Text.Solid p.1) {text : String} {a : α} :
    names.lookup (Text.lowerAscii (Text.trimBlank text)) = some a ↔
      ∃ name, (name, a) ∈ names ∧ Text.Names text name := by
  rw [← Keyed.mem_iff_lookup hkeys, Text.exists_names_iff fun name h => hsolid (name, a) h]

/-- The names of warehouse engines, some of which stand for one dialect. -/
def Dialect.engines : List (String × Dialect) :=
  [("postgres", postgres), ("redshift", redshift), ("snowflake", snowflake), ("sqlite", sqlite),
    ("postgresql", postgres), ("sqlite3", sqlite)]

theorem Dialect.ofName?_eq_some_iff {text : String} {d : Dialect} :
    ofName? text = some d ↔ ∃ name, (name, d) ∈ engines ∧ Text.Names text name :=
  lookup_trimmed_eq_some_iff (by decide) (by decide)

theorem Settings.valueMode?_eq_some_iff {text : String} {m : ValueMode} :
    valueMode? text = some m ↔ Text.Names text m.name := by
  rw [valueMode?, lookup_trimmed_eq_some_iff (by decide) (by decide)]
  constructor
  · rintro ⟨name, hmem, hname⟩
    obtain ⟨n, -, heq⟩ := List.mem_map.mp hmem
    obtain ⟨rfl, rfl⟩ := Prod.mk.inj heq
    exact hname
  · exact fun h => ⟨_, by cases m <;> decide, h⟩

theorem uint64?_eq_some_iff {text : String} {n : UInt64} :
    uint64? text = some n ↔ Text.Numbers text n.toNat := by
  rw [uint64?, Option.map_eq_some_iff]
  simp only [Text.numbers_iff]
  constructor
  · rintro ⟨m, ⟨hm, hbound⟩, rfl⟩
    rwa [UInt64.toNat_ofNat_of_lt' (Nat.lt_succ_of_le hbound)]
  · exact fun h => ⟨_, ⟨h, Nat.le_of_lt_succ n.toNat_lt⟩, UInt64.ofNat_toNat⟩

/-- The words that set a flag, and those that clear it. -/
def flagWords (on : Bool) : List String := if on then ["true", "1", "yes"] else ["false", "0", "no"]

/-- A text sets a flag or clears it, by one of the words for that. -/
def FlagText (text : String) (on : Bool) : Prop := ∃ word ∈ flagWords on, Text.Names text word

theorem flagText_iff {text : String} {on : Bool} :
    FlagText text on ↔ Text.lowerAscii (Text.trimBlank text) ∈ flagWords on := by
  have hsolid : ∀ word ∈ flagWords on, Text.Solid word := by cases on <;> decide
  exact Text.exists_names_iff hsolid

theorem isYes_iff {text : String} : isYes text = true ↔ FlagText text true := by
  have hlower : ∀ word ∈ flagWords true, Text.lowerAscii word = word := by decide
  rw [isYes, List.any_eq_true, flagText_iff]
  constructor
  · rintro ⟨word, hword, hsame⟩
    rwa [← Text.sameLetters_iff.mp hsame, hlower word hword]
  · exact fun h => ⟨_, h, Text.sameLetters_iff.mpr (hlower _ h)⟩

theorem isYes_of_flagText {text : String} {on : Bool} (h : FlagText text on) : isYes text = on := by
  cases on with
  | true => exact isYes_iff.mpr h
  | false =>
    have hapart : ∀ word ∈ flagWords false, word ∉ flagWords true := by decide
    refine Bool.eq_false_iff.mpr fun hyes => ?_
    exact hapart _ (flagText_iff.mp h) (flagText_iff.mp (isYes_iff.mp hyes))

/-! ## Variables -/

/-- Settings with another level of messages. -/
def Settings.setLogLevel (level : String) (s : Settings) : Settings := { s with logLevel := level }

/-- Settings with messages for developers or without them. -/
def Settings.setDebug (on : Bool) (s : Settings) : Settings := { s with debug := on }

/-- A variable of the environment and the setting that it is for: the values that its texts are documented to
give, and how its texts are read. -/
structure Variable where
  name : String
  path : List String
  Value : Type
  means : String → Value → Prop
  read : String → Option Value
  get : Settings → Value
  set : Value → Settings → Settings
  read_of_means : ∀ {text a}, means text a → read text = some a
  get_set : ∀ a s, get (set a s) = a

/-- A flag with a variable. -/
structure Flag where
  name : String
  path : List String
  get : Settings → Bool
  set : Bool → Settings → Settings
  get_set : ∀ on s, get (set on s) = on

namespace Flag

/-- The variable of a flag. -/
def toVariable (f : Flag) : Variable where
  name := f.name
  path := f.path
  Value := Bool
  means := FlagText
  read text := some (isYes text)
  get := f.get
  set := f.set
  read_of_means h := congrArg some (isYes_of_flagText h)
  get_set := f.get_set

/-- Messages for developers. -/
def debug : Flag where
  name := "AUDIENCE_DEBUG"
  path := ["debug"]
  get := Settings.debug
  set := Settings.setDebug
  get_set _ _ := rfl

/-- Unknown operators are refused. -/
def strictOperators : Flag where
  name := "AUDIENCE_STRICT_OPERATORS"
  path := ["compiler", "strict_operators"]
  get s := s.compiler.strictOperators
  set := Settings.setStrict
  get_set _ _ := rfl

/-- All flags that have a variable. -/
def all : List Flag := [debug, strictOperators]

end Flag

namespace Variable

section

variable (name : String) (path : List String)

/-- A variable whose texts are read as what they mean. -/
def reading {α : Type} (means : String → α → Prop) (read : String → Option α)
    (hread : ∀ text a, read text = some a ↔ means text a) (get : Settings → α)
    (set : α → Settings → Settings) (hset : ∀ a s, get (set a s) = a) : Variable where
  name
  path
  Value := α
  means
  read
  get
  set
  read_of_means := (hread _ _).mpr
  get_set := hset

/-- A variable whose text is the value. -/
def text : (get : Settings → String) → (set : String → Settings → Settings) →
    (∀ a s, get (set a s) = a) → Variable :=
  reading name path (fun text a => text = a) some fun _ _ => Option.some_inj

/-- A variable for a number. -/
def number : (get : Settings → UInt64) → (set : UInt64 → Settings → Settings) →
    (∀ n s, get (set n s) = n) → Variable :=
  reading name path (fun text n => Text.Numbers text n.toNat) uint64? fun _ _ => uint64?_eq_some_iff

end

/-- The variable for the level of messages. -/
def logLevel : Variable :=
  text "AUDIENCE_LOG_LEVEL" ["log_level"] Settings.logLevel Settings.setLogLevel fun _ _ => rfl

/-- The variable for the dialect. -/
def dialect : Variable :=
  reading "AUDIENCE_WAREHOUSE_DIALECT" ["warehouse", "dialect"]
    (fun text d => ∃ name, (name, d) ∈ Dialect.engines ∧ Text.Names text name) Dialect.ofName?
    (fun _ _ => Dialect.ofName?_eq_some_iff) (·.warehouse.dialect) Settings.setDialect fun _ _ => rfl

/-- The variable for the connection. -/
def connection : Variable :=
  text "AUDIENCE_CONNECTION_ID" ["warehouse", "connection_id"] (·.warehouse.connection) Settings.setConnection
    fun _ _ => rfl

/-- The variable for the deadline. -/
def timeout : Variable :=
  number "AUDIENCE_QUERY_TIMEOUT_SECS" ["warehouse", "query_timeout_secs"] (·.warehouse.timeoutSeconds)
    Settings.setTimeout fun _ _ => rfl

/-- The variable for the cap on previews. -/
def previewLimit : Variable :=
  number "AUDIENCE_PREVIEW_LIMIT" ["compiler", "preview_limit"] (·.compiler.previewLimit)
    Settings.setPreviewLimit fun _ _ => rfl

/-- The variable for the value mode. -/
def valueMode : Variable :=
  reading "AUDIENCE_VALUE_MODE" ["compiler", "value_mode"] (fun text m => Text.Names text m.name)
    Settings.valueMode? (fun _ _ => Settings.valueMode?_eq_some_iff) (·.compiler.valueMode)
    Settings.setValueMode fun _ _ => rfl

/-- The variables that are not for flags. -/
def plain : List Variable := [logLevel, dialect, connection, timeout, previewLimit, valueMode]

/-- All variables. -/
def all : List Variable :=
  [logLevel, Flag.debug.toVariable, dialect, connection, timeout, previewLimit,
    Flag.strictOperators.toVariable, valueMode]

theorem forall_mem_all_iff {P : Variable → Prop} :
    (∀ x ∈ all, P x) ↔ (∀ x ∈ plain, P x) ∧ ∀ f ∈ Flag.all, P f.toVariable := by
  simp only [all, plain, Flag.all, List.forall_mem_cons, List.not_mem_nil, false_implies, implies_true,
    and_true]
  tauto

/-- The texts of a variable are read as what they mean, and no others. -/
def Exact (x : Variable) : Prop := ∀ text a, x.read text = some a ↔ x.means text a

theorem exact_reading {name : String} {path : List String} {α : Type} {means : String → α → Prop}
    {read : String → Option α} (hread : ∀ text a, read text = some a ↔ means text a) {get : Settings → α}
    {set : α → Settings → Settings} {hset : ∀ a s, get (set a s) = a} :
    (reading name path means read hread get set hset).Exact := hread

theorem exact_of_mem_plain : ∀ x ∈ plain, x.Exact := by
  simp only [plain, List.forall_mem_cons, List.not_mem_nil, false_implies, implies_true, and_true]
  exact ⟨exact_reading fun _ _ => Option.some_inj, exact_reading fun _ _ => Dialect.ofName?_eq_some_iff,
    exact_reading fun _ _ => Option.some_inj, exact_reading fun _ _ => uint64?_eq_some_iff,
    exact_reading fun _ _ => uint64?_eq_some_iff, exact_reading fun _ _ => Settings.valueMode?_eq_some_iff⟩

/-! ## One variable applied -/

variable (env : String → Option String)

/-- The value that an environment gives for a variable, if there is one that can be read. -/
def given (x : Variable) : Option x.Value := (env x.name).bind x.read

/-- Settings with a variable applied. -/
def apply (s : Settings) (x : Variable) : Settings := ((x.given env).map (x.set · s)).getD s

theorem get_apply (x : Variable) (s : Settings) : x.get (x.apply env s) = (x.given env).getD (x.get s) := by
  unfold apply
  cases x.given env with
  | none => rfl
  | some a => exact x.get_set a s

theorem apply_kept {α : Type} {view : Settings → α} {x : Variable}
    (h : ∀ a s, view (x.set a s) = view s) (s : Settings) : view (x.apply env s) = view s := by
  unfold apply
  cases x.given env with
  | none => rfl
  | some a => exact h a s

/-! ## Variables applied one after the other -/

/-- What none of some variables sets is kept by all of them. -/
theorem foldl_kept {α : Type} {view : Settings → α} {xs : List Variable}
    (h : ∀ x ∈ xs, ∀ a s, view (x.set a s) = view s) (s : Settings) :
    view (xs.foldl (fun s x => x.apply env s) s) = view s := by
  induction xs generalizing s with
  | nil => rfl
  | cons x xs ih =>
    obtain ⟨hx, hxs⟩ := List.forall_mem_cons.mp h
    rw [List.foldl_cons, ih hxs, apply_kept env hx]

/-- Two variables are for settings apart. -/
def Apart (x y : Variable) : Prop :=
  (∀ a s, x.get (y.set a s) = x.get s) ∧ ∀ a s, y.get (x.set a s) = y.get s

/-- Of variables that are apart each gives its own setting, and the others leave it. -/
theorem get_foldl {xs : List Variable} (h : xs.Pairwise Apart) {x : Variable} (hx : x ∈ xs) (s : Settings) :
    x.get (xs.foldl (fun s x => x.apply env s) s) = (x.given env).getD (x.get s) := by
  induction xs generalizing s with
  | nil => exact absurd hx List.not_mem_nil
  | cons y xs ih =>
    obtain ⟨hy, hxs⟩ := List.pairwise_cons.mp h
    rw [List.foldl_cons]
    rcases List.mem_cons.mp hx with rfl | hx
    · -- It is applied now, and no later variable sets its setting.
      rw [foldl_kept env fun z hz => (hy z hz).1, get_apply]
    · rw [ih hxs hx, apply_kept env (hy x hx).2]

end Variable

/-- A variable as it is listed: its name, and the settings that its text makes of others. -/
def Variable.entry (x : Variable) : String × (String → Settings → Option Settings) :=
  (x.name, fun text s => (x.read text).map (x.set · s))

theorem Settings.overrides_eq : overrides = Variable.all.map Variable.entry := by
  simp only [Variable.all, Variable.logLevel, Variable.dialect, Variable.connection, Variable.timeout,
    Variable.previewLimit, Variable.valueMode, Variable.text, Variable.number, Variable.reading,
    Flag.toVariable, Variable.entry, List.map_cons, List.map_nil]
  rfl

theorem Settings.override_eq (env : String → Option String) (s : Settings) :
    override env s = Variable.all.foldl (fun s x => x.apply env s) s := by
  rw [override, overrides_eq, List.foldl_map]
  congr
  funext s x
  rw [Variable.apply, Variable.given, Option.map_bind]
  rfl

theorem Variable.apart_all : Variable.all.Pairwise Variable.Apart := by
  simp only [all, List.pairwise_cons, List.forall_mem_cons, List.not_mem_nil, false_implies,
    implies_true, and_true, List.Pairwise.nil]
  repeat' apply And.intro
  all_goals exact fun _ _ => rfl

/-- A variable changes no setting but that at its path. -/
theorem Variable.set_kept : ∀ v ∈ Variable.all, ∀ x ∈ Setting.all, x.path ≠ v.path →
    ∀ a s, x.get (v.set a s) = x.get s := by
  simp only [all, Setting.forall_mem_all_iff, Settings.ownParts, WarehouseSettings.parts,
    CompilerSettings.parts, CohortSettings.parts, List.forall_mem_cons, List.not_mem_nil, false_implies,
    implies_true, and_true]
  repeat' apply And.intro
  all_goals first
    | exact fun _ _ _ => rfl
    | exact fun h => absurd rfl h

theorem Settings.get_override (env : String → Option String) (b : Settings) {x : Variable}
    (h : x ∈ Variable.all) : x.get (override env b) = (x.given env).getD (x.get b) := by
  rw [override_eq, Variable.get_foldl env Variable.apart_all h]

/-! ## What is documented -/

namespace Variable

/-- The setting of a variable in `t` has the value that the text of the variable gives, and otherwise the
value that it has in `b`: if there is no text, and if the text gives no value. -/
structure Over (x : Variable) (env : String → Option String) (b t : Settings) : Prop where
  taken : ∀ text a, env x.name = some text → x.means text a → x.get t = a
  kept : (∀ text a, env x.name = some text → ¬ x.means text a) → x.get t = x.get b

variable {x : Variable} {env : String → Option String} {b t : Settings}

theorem over_of_absent (hget : x.get t = (x.given env).getD (x.get b)) (h : env x.name = none) :
    x.Over env b t where
  taken text a htext := nomatch h.symm.trans htext
  kept _ := by rw [hget, given, h]; rfl

/-- What a variable is read as is documented, if no text is read that gives no value, unless the setting has
the value that is read already. -/
theorem over_iff_of_present (hget : x.get t = (x.given env).getD (x.get b)) {text : String}
    (h : env x.name = some text) :
    x.Over env b t ↔ ∀ a, x.read text = some a → (∃ c, x.means text c) ∨ x.get b = a := by
  rw [given, h, Option.bind_some] at hget
  constructor
  · intro hover a hread
    refine or_iff_not_imp_left.mpr fun hnone => ?_
    rw [hread] at hget
    rw [← hover.kept fun text' c htext hc => hnone ⟨c, Option.some.inj (h.symm.trans htext) ▸ hc⟩]
    exact hget
  · intro hread
    refine ⟨fun text' a htext ha => ?_, fun hnone => ?_⟩
    · obtain rfl := Option.some.inj (h.symm.trans htext)
      rw [hget, x.read_of_means ha, Option.getD_some]
    · cases hvalue : x.read text with
      | none => rw [hget, hvalue, Option.getD_none]
      | some a =>
        rw [hget, hvalue, Option.getD_some]
        exact ((hread a hvalue).resolve_left fun ⟨c, hc⟩ => hnone text c h hc).symm

theorem Exact.over (hx : x.Exact) (hget : x.get t = (x.given env).getD (x.get b)) : x.Over env b t := by
  cases h : env x.name with
  | none => exact over_of_absent hget h
  | some text => exact (over_iff_of_present hget h).mpr fun a ha => Or.inl ⟨a, (hx text a).mp ha⟩

end Variable

namespace Flag

/-- Every text of a flag's variable decides: one of the words for it sets the flag, and any other text clears
it. Without a text the flag is left as it is. -/
structure Decided (f : Flag) (env : String → Option String) (b t : Settings) : Prop where
  present : ∀ text, env f.name = some text → (f.get t = true ↔ FlagText text true)
  absent : env f.name = none → f.get t = f.get b

variable {f : Flag} {env : String → Option String} {b t : Settings}

theorem given_toVariable (f : Flag) (env : String → Option String) :
    f.toVariable.given env = (env f.name).map isYes := by
  rw [Option.map_eq_bind]
  rfl

theorem decided_of_get (hget : f.get t = ((env f.name).map isYes).getD (f.get b)) : f.Decided env b t where
  present text h := by rw [hget, h, Option.map_some, Option.getD_some, isYes_iff]
  absent h := by rw [hget, h, Option.map_none, Option.getD_none]

/-- A flag is as documented, unless it is cleared by a text that is no word for that. -/
theorem over_iff (hget : f.toVariable.get t = (f.toVariable.given env).getD (f.toVariable.get b)) :
    f.toVariable.Over env b t ↔
      (f.get b = true → ∀ text, env f.name = some text → ∃ on, FlagText text on) := by
  cases h : env f.name with
  | none => exact iff_of_true (Variable.over_of_absent hget h) fun _ _ => nofun
  | some text =>
    have hread : ∀ on, f.toVariable.read text = some on ↔ isYes text = on := fun _ => Option.some_inj
    rw [Variable.over_iff_of_present hget h]
    constructor
    · intro hover hset _ heq
      obtain rfl := Option.some.inj heq
      rcases hover _ ((hread _).mpr rfl) with hword | hclear
      · exact hword
      · exact ⟨true, isYes_iff.mp (hclear.symm.trans hset)⟩
    · intro hword on hon
      obtain rfl := (hread on).mp hon
      by_cases hset : f.get b = true
      · exact Or.inl (hword hset text rfl)
      · -- Clearing it again changes nothing, and a text that sets it is a word for that.
        cases hyes : isYes text with
        | true => exact Or.inl ⟨true, isYes_iff.mp hyes⟩
        | false => exact Or.inr (Bool.eq_false_iff.mpr hset)

end Flag

namespace Settings

/-- The settings outside the reach of the environment are in `t` as they are in `b`. -/
def Kept (b t : Settings) : Prop :=
  ∀ x ∈ Setting.all, (∀ v ∈ Variable.all, x.path ≠ v.path) → x.get t = x.get b

/-- An environment changes settings as documented: each setting by its own variable, and by a text that gives
a value; other texts change nothing. -/
structure Overridden (env : String → Option String) (b t : Settings) : Prop where
  each : ∀ x ∈ Variable.all, x.Over env b t
  kept : Kept b t

/-- An environment changes settings as documented, where the variable of a flag decides by any text. -/
structure Decided (env : String → Option String) (b t : Settings) : Prop where
  plain : ∀ x ∈ Variable.plain, x.Over env b t
  flags : ∀ f ∈ Flag.all, f.Decided env b t
  kept : Kept b t

theorem kept_override (env : String → Option String) (b : Settings) : Kept b (override env b) := by
  intro x hx hapart
  rw [override_eq]
  exact Variable.foldl_kept env (fun v hv => Variable.set_kept v hv x hx (hapart v hv)) b

/-- **What an environment changes**: each setting is changed by its own variable only and by a text that gives
a value, but a flag by any text. This is as documented unless a flag is cleared by a text that is no word for
that. -/
theorem override_decided (env : String → Option String) (b : Settings) :
    Decided env b (override env b) ∧
      (Overridden env b (override env b) ↔ ∀ f ∈ Flag.all, f.get b = true →
        ∀ text, env f.name = some text → ∃ on, FlagText text on) := by
  obtain ⟨hplain, hflags⟩ := Variable.forall_mem_all_iff.mp fun x => get_override env b (x := x)
  have hover : ∀ x ∈ Variable.plain, x.Over env b (override env b) := fun x hx =>
    (Variable.exact_of_mem_plain x hx).over (hplain x hx)
  have hdecided : ∀ f ∈ Flag.all, f.Decided env b (override env b) := fun f hf =>
    Flag.decided_of_get ((hflags f hf).trans (congrArg (Option.getD · _) (f.given_toVariable env)))
  refine ⟨⟨hover, hdecided, kept_override env b⟩, ?_⟩
  rw [← forall₂_congr fun f hf => Flag.over_iff (hflags f hf)]
  constructor
  · exact fun h => (Variable.forall_mem_all_iff.mp h.each).2
  · exact fun h => ⟨Variable.forall_mem_all_iff.mpr ⟨hover, h⟩, kept_override env b⟩

example :
    override (fun name => [("AUDIENCE_WAREHOUSE_DIALECT", "oracle"), ("AUDIENCE_QUERY_TIMEOUT_SECS", "soon"),
      ("AUDIENCE_PREVIEW_LIMIT", "-3"), ("AUDIENCE_VALUE_MODE", " Inline ")].lookup name) {} =
        { compiler := { valueMode := .inline } } := by decide +kernel

/-- Settings in which both flags are set. -/
def cautious : Settings := { debug := true, compiler := { strictOperators := true } }

/-- An environment in which the variables of both flags have a text that is no word for them. -/
def mistaken (name : String) : Option String :=
  [("AUDIENCE_DEBUG", "on"), ("AUDIENCE_STRICT_OPERATORS", "enabled")].lookup name

/-- Both flags are cleared by texts that are no words for that. -/
theorem cautious_not_overridden :
    override mistaken cautious = {} ∧ ¬ Overridden mistaken cautious (override mistaken cautious) := by
  have hcleared : override mistaken cautious = {} := by decide +kernel
  refine ⟨hcleared, fun h => ?_⟩
  have hnone : ∀ text on, mistaken "AUDIENCE_DEBUG" = some text → ¬ FlagText text on := by
    intro text on htext
    obtain rfl : "on" = text := Option.some.inj htext
    rw [flagText_iff]
    cases on <;> decide
  have hkept : (override mistaken cautious).debug = cautious.debug :=
    ((Variable.forall_mem_all_iff.mp h.each).2 Flag.debug List.mem_cons_self).kept hnone
  rw [hcleared] at hkept
  cases hkept

end Settings

end Targeting
