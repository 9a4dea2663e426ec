import Mathlib.Data.List.Forall2
import Targeting.Filter.Format
import Targeting.Proofs.Records

/-!
# What a filter specification may be

A specification is an object with two lists of filters, each of which may be left out. All that is wrong
with it is reported at once, and nothing else is: a list that is no list under its name, an element that is
no filter under its position.

* `Filter.JsonForm`, `FilterSet.Listed`: how filters and lists of them are written;
* `Read.filter_eq_ok_iff`: what is read as a filter;
* `FilterSet.Objection`: what is reported of a list;
* **`FilterSet.ofJson_reports`**: what a specification is read as, and what is reported of it.
-/

namespace Targeting

/-! ## Operands and connectors -/

namespace Document

mutual

theorem legible_ofJson (v : Json) : (ofJson v).legible none = true := by
  cases v with
  | array items => exact legibleItems_ofJsonItems items
  | object members => exact legibleMembers_ofJsonMembers members
  | _ => rfl

theorem legibleItems_ofJsonItems (items : List Json) : legibleItems none (ofJsonItems items) = true := by
  cases items with
  | nil => rfl
  | cons v rest =>
    exact Bool.and_eq_true_iff.mpr ⟨legible_ofJson v, legibleItems_ofJsonItems rest⟩

theorem legibleMembers_ofJsonMembers (members : List (String × Json)) :
    legibleMembers none (ofJsonMembers members) = true := by
  cases members with
  | nil => rfl
  | cons m rest =>
    exact Bool.and_eq_true_iff.mpr ⟨legible_ofJson m.2, legibleMembers_ofJsonMembers rest⟩

end

end Document

namespace Operand

mutual

/-- Texts, numbers and lists of operands are operands, and nothing else is. -/
theorem ofDocument?_eq_some_iff {v : Json} {x : Operand} :
    ofDocument? (Document.ofJson v) = some x ↔ v = x.toJson := by
  cases v with
  | string s => cases x <;> simp [Document.ofJson, ofDocument?, toJson]
  | number n => cases x <;> simp [Document.ofJson, ofDocument?, toJson]
  | array items =>
    rw [Document.ofJson, ofDocument?, Option.map_eq_some_iff]
    cases x with
    | list xs => simp [toJson, @ofDocuments?_eq_some_iff items]
    | _ => simp [toJson]
  | _ => cases x <;> simp [Document.ofJson, ofDocument?, toJson]

theorem ofDocuments?_eq_some_iff {items : List Json} {xs : List Operand} :
    ofDocuments? (Document.ofJsonItems items) = some xs ↔ items = toJsons xs := by
  cases items with
  | nil => cases xs <;> simp [Document.ofJsonItems, ofDocuments?, toJsons]
  | cons v rest =>
    simp only [Document.ofJsonItems, ofDocuments?, Option.bind_eq_bind, Option.bind_eq_some_iff,
      @ofDocument?_eq_some_iff v, @ofDocuments?_eq_some_iff rest, Option.pure_def,
      Option.some.injEq]
    cases xs with
    | nil => simp [toJsons]
    | cons x xs => simp [toJsons]

end

end Operand

theorem Read.operand_eq_ok_iff {v : Json} {x : Operand} :
    (Read.operand none).ofJson v = .ok x ↔ v = x.toJson := by
  rw [Read.ofJson, Read.operand, if_pos (Document.legible_ofJson v), ← Operand.ofDocument?_eq_some_iff]
  cases Operand.ofDocument? (Document.ofJson v) <;> simp

/-- How the connector of a filter is written: by its name, by an object with its name as the only key and
nothing below it, or, if there is none, as nothing. -/
inductive Connector.JsonForm : Json → Option Connector → Prop
  | nothing : JsonForm .null none
  | name {name : String} {c : Connector} (h : byName.lookup name = some c) :
      JsonForm (.string name) (some c)
  | key {name : String} {c : Connector} (h : byName.lookup name = some c) :
      JsonForm (.object [(name, .null)]) (some c)

theorem Connector.jsonForm_null_iff {c : Option Connector} : JsonForm .null c ↔ c = none :=
  ⟨fun h => by cases h; rfl, fun h => h ▸ .nothing⟩

theorem Read.connector_eq_ok_iff {v : Json} {c : Option Connector} :
    (Read.optional (Read.choice .value Connector.byName)).ofJson v = .ok c ↔ Connector.JsonForm v c := by
  rw [Read.optional_eq_ok_iff]
  constructor
  · rintro (⟨rfl, rfl⟩ | ⟨c, rfl, _, hc⟩)
    · exact .nothing
    · obtain ⟨name, hname, rfl | rfl⟩ := Read.choice_eq_ok_iff.mp hc
      · exact .name hname
      · exact .key hname
  · rintro (_ | hname | hname)
    · exact Or.inl ⟨rfl, rfl⟩
    · exact Or.inr ⟨_, rfl, nofun, Read.choice_eq_ok_iff.mpr ⟨_, hname, Or.inl rfl⟩⟩
    · exact Or.inr ⟨_, rfl, nofun, Read.choice_eq_ok_iff.mpr ⟨_, hname, Or.inr rfl⟩⟩

/-! ## Filters -/

namespace Filter

/-- The operand as a part of a filter. -/
def operandPart : Part Filter where
  name := "value"
  Value := Operand
  optional := false
  read := Read.operand none
  takes v x := v = x.toJson
  get := operand
  set x f := { f with operand := x }
  takes_iff _ _ := Read.operand_eq_ok_iff
  get_set _ _ := rfl

/-- The connector as a part of a filter. -/
def connectorPart : Part Filter where
  name := "logicalOperator"
  Value := Option Connector
  optional := true
  read := Read.optional (Read.choice .value Connector.byName)
  takes := Connector.JsonForm
  get := connector
  set x f := { f with connector := x }
  takes_iff _ _ := Read.connector_eq_ok_iff
  get_set _ _ := rfl

theorem filled_connectorPart {given : Option Json} {f : Filter} :
    connectorPart.Filled given (Filter.record .value none).blank f ↔
      Connector.JsonForm (given.getD .null) f.connector := by
  cases given with
  | none =>
    rw [Option.getD_none, Connector.jsonForm_null_iff]
    exact and_iff_right rfl
  | some v => exact Iff.rfl

/-- The parts of a filter. -/
def parts : List (Part Filter) :=
  [.text "field" field (fun x f => { f with field := x }) fun _ _ => rfl,
    .text "operator" operator (fun x f => { f with operator := x }) fun _ _ => rfl,
    operandPart, connectorPart]

theorem made : (Filter.record .value none).Made parts :=
  Record.made_of_values rfl (by decide)
    (fun (field, operator, operand, connector, _) => ⟨field, operator, operand, connector⟩)
    (fun _ => rfl) fun _ _ => rfl

/-- How a filter is written: as an object with its parts, each once at most, or as an array of them in their
order. The connector may be left out. -/
inductive JsonForm : Json → Filter → Prop
  | object {ms : List (String × Json)} {f : Filter}
      (once : ∀ key ∈ ["field", "operator", "value", "logicalOperator"], (ms.map Prod.fst).count key ≤ 1)
      (field : ms.lookup "field" = some (.string f.field))
      (operator : ms.lookup "operator" = some (.string f.operator))
      (operand : ms.lookup "value" = some f.operand.toJson)
      (connector : Connector.JsonForm ((ms.lookup "logicalOperator").getD .null) f.connector) :
      JsonForm (.object ms) f
  | array {f : Filter} (connector : f.connector = none) :
      JsonForm (.array [.string f.field, .string f.operator, f.operand.toJson]) f
  | tied {f : Filter} {v : Json} (connector : Connector.JsonForm v f.connector) :
      JsonForm (.array [.string f.field, .string f.operator, f.operand.toJson, v]) f

theorem jsonForm_object_iff {ms : List (String × Json)} {f : Filter} :
    JsonForm (.object ms) f ↔
      Record.Once parts ms ∧ ∀ p ∈ parts, p.Filled (ms.lookup p.name) (Filter.record .value none).blank f := by
  have honce : Record.Once parts ms ↔
      ∀ key ∈ parts.map Part.name, (ms.map Prod.fst).count key ≤ 1 := by
    rw [List.forall_mem_map, Record.Once]
  simp only [parts, List.forall_mem_cons, List.not_mem_nil, false_implies, implies_true, and_true]
  rw [Part.filled_iff_of_required rfl, Part.filled_iff_of_required rfl, Part.filled_iff_of_required rfl,
    filled_connectorPart]
  constructor
  · rintro (⟨once, hfield, hoperator, hoperand, hconnector⟩)
    exact ⟨honce.mpr once, ⟨_, hfield, rfl⟩, ⟨_, hoperator, rfl⟩, ⟨_, hoperand, rfl⟩, hconnector⟩
  · rintro ⟨once, ⟨_, hfield, rfl⟩, ⟨_, hoperator, rfl⟩, ⟨_, hoperand, rfl⟩, hconnector⟩
    exact .object (honce.mp once) hfield hoperator hoperand hconnector

theorem jsonForm_array_iff {items : List Json} {f : Filter} :
    JsonForm (.array items) f ↔
      Record.InOrder parts items (Filter.record .value none).blank f := by
  constructor
  · rintro (_ | hnone | hconnector)
    · cases f
      cases hnone
      exact ⟨_, rfl, _, rfl, _, rfl, rfl, rfl⟩
    · exact ⟨_, rfl, _, rfl, _, rfl, _, hconnector, rfl⟩
  · intro h
    match items, h with
    | [_, _, _], ⟨field, rfl, operator, rfl, operand, rfl, _, hf⟩ =>
      cases hf
      exact .array (f := { field, operator, operand }) rfl
    | [_, _, _, _], ⟨field, rfl, operator, rfl, operand, rfl, connector, hconnector, hf⟩ =>
      cases hf
      exact .tied (f := { field, operator, operand, connector }) hconnector

end Filter

/-- **What is read as a filter**: what is written as one. -/
theorem Read.filter_eq_ok_iff {v : Json} {f : Filter} :
    (Read.filter .value none).ofJson v = .ok f ↔ Filter.JsonForm v f := by
  cases v with
  | object ms => exact Filter.made.readObject_eq_ok_iff.trans Filter.jsonForm_object_iff.symm
  | array items => exact Record.readItems_eq_ok_iff.trans Filter.jsonForm_array_iff.symm
  | _ => exact ⟨nofun, nofun⟩

/-- An element is not read for the reason that is reported of it only if it is written as no filter. -/
theorem Read.exists_fault_iff {v : Json} :
    (∃ fault, (Read.filter .value none).ofJson v = .error fault) ↔ ∀ f, ¬Filter.JsonForm v f := by
  simp only [← Read.filter_eq_ok_iff]
  cases (Read.filter .value none).ofJson v with
  | error fault => exact ⟨fun _ => nofun, fun _ => ⟨fault, rfl⟩⟩
  | ok f => exact ⟨nofun, fun h => absurd rfl (h f)⟩

/-! ## Lists of filters -/

theorem toDigits_inj {m n : Nat} : Nat.toDigits 10 m = Nat.toDigits 10 n ↔ m = n := by
  refine ⟨fun h => ?_, fun h => h ▸ rfl⟩
  rw [← Nat.ofDigitChars_toDigits (b := 10) (n := m) (by decide) (by decide), h,
    Nat.ofDigitChars_toDigits (by decide) (by decide)]

theorem itemPath_inj {list : String} {i j : Nat} : itemPath list i = itemPath list j ↔ i = j := by
  refine ⟨fun h => ?_, fun h => h ▸ rfl⟩
  have hchars := congrArg String.toList h
  simp only [itemPath, String.toList_append, List.append_cancel_right_eq, List.append_cancel_left_eq] at hchars
  rw [show (toString i).toList = Nat.toDigits 10 i from Nat.toList_repr,
    show (toString j).toList = Nat.toDigits 10 j from Nat.toList_repr] at hchars
  exact toDigits_inj.mp hchars

namespace FilterSet

/-- How a list of filters is given: not at all, as nothing, or as an array with a filter in each place. -/
inductive Listed : Option Json → List Filter → Prop
  | absent : Listed none []
  | nothing : Listed (some .null) []
  | array {items : List Json} {filters : List Filter} (h : List.Forall₂ Filter.JsonForm items filters) :
      Listed (some (.array items)) filters

/-- What is reported of a list, and under which path: that it is no array, or that one of its elements is no
filter, in the words of the reader. -/
inductive Objection (list : String) : Option Json → String → Violation → Prop
  | notArray {v : Json} (hnull : v ≠ .null) (harray : ∀ items, v ≠ .array items) :
      Objection list (some v) list (.simple "Expected an array." "invalid_type")
  | notFilter {items : List Json} {i : Nat} {v : Json} {fault : Fault} (hitem : items[i]? = some v)
      (hbad : ∀ f, ¬Filter.JsonForm v f) (hfault : (Read.filter .value none).ofJson v = .error fault) :
      Objection list (some (.array items)) (itemPath list i) (.simple fault.message "invalid_filter")

/-- The problems of a list are those of its elements, each under its position. -/
theorem mem_readItems_iff {list : String} {i : Nat} {items : List Json} {path : String}
    {found : List Violation} :
    (path, found) ∈ (readItems list i items).2 ↔ ∃ j v fault, items[j]? = some v ∧
      (Read.filter .value none).ofJson v = .error fault ∧ path = itemPath list (i + j) ∧
        found = [.simple fault.message "invalid_filter"] := by
  induction items generalizing i with
  | nil => simp [readItems]
  | cons w rest ih =>
    have hrest : (path, found) ∈ (readItems list (i + 1) rest).2 ↔ ∃ j v fault,
        (w :: rest)[j + 1]? = some v ∧ (Read.filter .value none).ofJson v = .error fault ∧
          path = itemPath list (i + (j + 1)) ∧ found = [.simple fault.message "invalid_filter"] := by
      simp only [ih, List.getElem?_cons_succ, Nat.add_comm, Nat.add_left_comm]
    rw [← Nat.or_exists_add_one, ← hrest, readItems]
    cases hread : (Read.filter .value none).ofJson w with
    | ok f => simp [hread]
    | error fault => simp [hread]

theorem nodup_readItems (list : String) (i : Nat) (items : List Json) :
    ((readItems list i items).2.map Prod.fst).Nodup := by
  induction items generalizing i with
  | nil => exact List.nodup_nil
  | cons v rest ih =>
    rw [readItems]
    cases hread : (Read.filter .value none).ofJson v with
    | ok f => exact ih (i + 1)
    | error fault =>
      refine List.nodup_cons.mpr ⟨fun hmem => ?_, ih (i + 1)⟩
      obtain ⟨⟨path, found⟩, hfound, hpath⟩ := List.mem_map.mp hmem
      obtain ⟨j, _, _, _, _, rfl, _⟩ := mem_readItems_iff.mp hfound
      have hi := itemPath_inj.mp hpath
      omega

/-- All elements of a list are filters, and are read in their order, if none of them is a problem. -/
theorem readItems_eq_iff {list : String} {i : Nat} {items : List Json} {filters : List Filter} :
    readItems list i items = (filters, []) ↔ List.Forall₂ Filter.JsonForm items filters := by
  induction items generalizing i filters with
  | nil => simp [readItems, eq_comm]
  | cons v rest ih =>
    rw [List.forall₂_cons_left_iff, readItems]
    simp only [← Read.filter_eq_ok_iff, ← ih (i := i + 1)]
    cases hread : (Read.filter .value none).ofJson v with
    | ok f =>
      constructor
      · intro h
        obtain ⟨hfilters, hproblems⟩ := Prod.mk.inj h
        exact ⟨f, _, rfl, Prod.ext rfl hproblems, hfilters.symm⟩
      · rintro ⟨g, gs, hg, hgs, rfl⟩
        cases hg
        rw [hgs]
    | error fault =>
      constructor
      · intro h
        cases (Prod.mk.inj h).2
      · rintro ⟨g, gs, hg, _⟩
        cases hg

/-- **A list is read without a problem** if it is given as one, and holds the filters that it is given
with. -/
theorem readList_eq_iff (list : String) {given : Option Json} {filters : List Filter} :
    readList list given = (filters, []) ↔ Listed given filters := by
  constructor
  · intro h
    unfold readList at h
    split at h
    · cases h
      exact .absent
    · cases h
      exact .nothing
    · exact .array (readItems_eq_iff.mp h)
    · cases (Prod.mk.inj h).2
  · rintro (_ | _ | h)
    · rfl
    · rfl
    · exact readItems_eq_iff.mpr h

/-- **What is reported of a list**: all of its problems, each by itself. -/
theorem mem_readList_iff {list : String} {given : Option Json} {path : String} {found : List Violation} :
    (path, found) ∈ (readList list given).2 ↔ ∃ x, found = [x] ∧ Objection list given path x := by
  constructor
  · intro h
    unfold readList at h
    split at h
    · cases h
    · cases h
    · obtain ⟨j, v, fault, hv, hfault, rfl, rfl⟩ := mem_readItems_iff.mp h
      rw [Nat.zero_add]
      exact ⟨_, rfl, .notFilter hv (Read.exists_fault_iff.mp ⟨fault, hfault⟩) hfault⟩
    · next v hnull harray =>
      cases List.mem_singleton.mp h
      exact ⟨_, rfl, .notArray hnull harray⟩
  · rintro ⟨x, rfl, h⟩
    cases h with
    | @notArray v hnull harray =>
      rw [readList]
      · exact List.mem_singleton_self _
      · exact hnull
      · exact harray
    | notFilter hitem _ hfault =>
      exact mem_readItems_iff.mpr ⟨_, _, _, hitem, hfault, by rw [Nat.zero_add], rfl⟩

theorem nodup_readList (list : String) (given : Option Json) :
    ((readList list given).2.map Prod.fst).Nodup := by
  unfold readList
  split
  · exact List.nodup_nil
  · exact List.nodup_nil
  · exact nodup_readItems _ _ _
  · exact List.nodup_singleton _

/-! ## Both lists -/

theorem Objection.startsWith {list path : String} {given : Option Json} {x : Violation}
    (h : Objection list given path x) : list.toList <+: path.toList := by
  cases h with
  | notArray => exact List.prefix_rfl
  | notFilter =>
    rw [itemPath, String.toList_append, String.toList_append, String.toList_append, List.append_assoc,
      List.append_assoc]
    exact List.prefix_append _ _

/-- A problem of one list is not reported under a path of the other. -/
theorem Objection.apart {path path' : String} {given given' : Option Json} {x y : Violation}
    (h : Objection "companyFilters" given path x) (h' : Objection "contactFilters" given' path' y) :
    path ≠ path' := by
  rintro rfl
  have hsame := List.prefix_of_prefix_length_le h.startsWith h'.startsWith (by decide)
  exact absurd hsame (by decide)

/-- What is wrong with an object that should be a specification: the problems of both lists. -/
def problems (ms : List (String × Json)) : Problems :=
  (readList "companyFilters" (ms.lookup "companyFilters")).2 ++
    (readList "contactFilters" (ms.lookup "contactFilters")).2

/-- A report of an object: under each path that is reported of one of its lists the one thing that is reported
there. -/
structure Report (ms : List (String × Json)) (fields : Problems) : Prop where
  sorted : Keyed.Sorted fields
  exact : ∀ path found, (path, found) ∈ fields ↔ ∃ x, found = [x] ∧
    (Objection "companyFilters" (ms.lookup "companyFilters") path x ∨
      Objection "contactFilters" (ms.lookup "contactFilters") path x)

theorem mem_problems_iff {ms : List (String × Json)} {path : String} {found : List Violation} :
    (path, found) ∈ problems ms ↔ ∃ x, found = [x] ∧
      (Objection "companyFilters" (ms.lookup "companyFilters") path x ∨
        Objection "contactFilters" (ms.lookup "contactFilters") path x) := by
  simp only [problems, List.mem_append, mem_readList_iff, ← exists_or, ← and_or_left]

theorem nodup_problems (ms : List (String × Json)) : ((problems ms).map Prod.fst).Nodup := by
  rw [problems, List.map_append, List.nodup_append]
  refine ⟨nodup_readList _ _, nodup_readList _ _, ?_⟩
  intro path hpath path' hpath'
  obtain ⟨p, hp, rfl⟩ := List.mem_map.mp hpath
  obtain ⟨q, hq, rfl⟩ := List.mem_map.mp hpath'
  obtain ⟨x, _, hx⟩ := mem_readList_iff.mp hp
  obtain ⟨y, _, hy⟩ := mem_readList_iff.mp hq
  exact hx.apart hy

/-- The problems of an object, sorted by their paths, are a report of it. -/
theorem report_ofList (ms : List (String × Json)) : Report ms (Keyed.ofList (problems ms)) where
  sorted := Keyed.sorted_ofList _
  exact _ _ := (Keyed.mem_ofList_iff (nodup_problems ms)).trans mem_problems_iff

/-- There is one report only. -/
theorem Report.unique {ms : List (String × Json)} {fields fields' : Problems} (h : Report ms fields)
    (h' : Report ms fields') : fields = fields' := by
  refine Keyed.Sorted.ext h.sorted h'.sorted fun path => Option.ext fun found => ?_
  rw [← Keyed.mem_iff_lookup h.sorted.nodup, ← Keyed.mem_iff_lookup h'.sorted.nodup, h.exact, h'.exact]

/-- A specification is read from an object without problems, and all problems of another one are reported. -/
theorem ofJson_object (ms : List (String × Json)) :
    ofJson (.object ms) = if problems ms = [] then
      .ok { company := (readList "companyFilters" (ms.lookup "companyFilters")).1,
            contact := (readList "contactFilters" (ms.lookup "contactFilters")).1 }
    else .error (.validation (.ofFields (problems ms))) := by
  rw [ofJson]
  simp only [Json.get?, Role.listName]
  split
  · next hnone => rw [if_pos (show problems ms = [] from hnone)]
  · next hsome => rw [if_neg (show problems ms ≠ [] from hsome), problems]

theorem ofJson_object_eq_ok_iff {ms : List (String × Json)} {s : FilterSet} :
    ofJson (.object ms) = .ok s ↔ Listed (ms.lookup "companyFilters") s.company ∧
      Listed (ms.lookup "contactFilters") s.contact := by
  rw [ofJson_object, ← readList_eq_iff "companyFilters",
    ← readList_eq_iff "contactFilters"]
  constructor
  · intro h
    split at h
    · next hnone =>
      cases h
      obtain ⟨hcompany, hcontact⟩ := List.append_eq_nil_iff.mp hnone
      exact ⟨Prod.ext rfl hcompany, Prod.ext rfl hcontact⟩
    · cases h
  · rintro ⟨hcompany, hcontact⟩
    rw [if_pos (by rw [problems, hcompany, hcontact]; rfl), hcompany, hcontact]

theorem ofJson_object_eq_error_iff {ms : List (String × Json)} {e : Error} :
    ofJson (.object ms) = .error e ↔
      ∃ fields, fields ≠ [] ∧ Report ms fields ∧ e = .validation ⟨"", "", [], fields⟩ := by
  have hnil : Keyed.ofList (problems ms) = [] ↔ problems ms = [] := by
    simp only [List.eq_nil_iff_forall_not_mem, Keyed.mem_ofList_iff (nodup_problems ms)]
  rw [ofJson_object]
  constructor
  · intro h
    split at h
    · cases h
    · next hsome =>
      cases h
      exact ⟨_, fun hnone => hsome (hnil.mp hnone), report_ofList ms, rfl⟩
  · rintro ⟨fields, hfields, hreport, rfl⟩
    obtain rfl := hreport.unique (report_ofList ms)
    rw [if_neg fun hnone => hfields (hnil.mpr hnone)]
    rfl

/-- **A specification and its report.** What is read is an object in which each list is left out, or nothing,
or an array of filters, in whose order it holds one filter for each of them. Of what is no object just that
is reported; of every other object what is reported has a path for each list that is no array and for each
element that is no filter, and no other path. -/
theorem ofJson_reports (v : Json) :
    (∀ s, ofJson v = .ok s ↔ ∃ ms, v = .object ms ∧
      Listed (ms.lookup "companyFilters") s.company ∧ Listed (ms.lookup "contactFilters") s.contact) ∧
    ∀ e, ofJson v = .error e ↔
      ((∀ ms, v ≠ .object ms) ∧
        e = .validation (.simple "Filter specification must be a JSON object" "invalid_type")) ∨
      ∃ ms fields, v = .object ms ∧ fields ≠ [] ∧ Report ms fields ∧
        e = .validation ⟨"", "", [], fields⟩ := by
  by_cases hobject : ∃ ms, v = .object ms
  · obtain ⟨ms, rfl⟩ := hobject
    refine ⟨fun s => ofJson_object_eq_ok_iff.trans ⟨fun h => ⟨ms, rfl, h⟩, ?_⟩,
      fun e => ofJson_object_eq_error_iff.trans ⟨fun ⟨fields, h⟩ => Or.inr ⟨ms, fields, rfl, h⟩, ?_⟩⟩
    · rintro ⟨_, ⟨⟩, h⟩
      exact h
    · rintro (⟨hno, _⟩ | ⟨_, fields, ⟨⟩, h⟩)
      · exact absurd rfl (hno ms)
      · exact ⟨fields, h⟩
  · have hno : ∀ ms, v ≠ .object ms := fun ms hv => hobject ⟨ms, hv⟩
    have hread : ofJson v =
        .error (.validation (.simple "Filter specification must be a JSON object" "invalid_type")) := by
      cases v with
      | object ms => exact absurd rfl (hno ms)
      | _ => rfl
    rw [hread]
    refine ⟨fun s => ⟨nofun, fun ⟨ms, hv, _⟩ => absurd hv (hno ms)⟩, fun e => ⟨?_, ?_⟩⟩
    · rintro ⟨⟩
      exact Or.inl ⟨hno, rfl⟩
    · rintro (⟨_, rfl⟩ | ⟨ms, _, hv, _⟩)
      · rfl
      · exact absurd hv (hno ms)

end FilterSet

end Targeting
