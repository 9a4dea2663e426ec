import Targeting.Proofs.Compilation
import Targeting.Proofs.Rendering
import Targeting.Sample

/-!
# What a search finds

A filter that searches a column asks for a pattern by `LIKE`: the text between two percent signs. The text
is not escaped, so percent signs and underscores in it are wildcards of the pattern as well. Everything that
has the text in it is found; with a wildcard in the text more is found than that.

* `Like`: what a pattern matches; `Like.append_iff`, **`like_between_iff`**: patterns in parts;
* `isWildcard`, `like_iff_eq`: patterns without wildcards; `counterText`: what a wildcard finds besides;
* **`like_iff_infix_iff`**: when searching for a text finds just the texts with it inside;
* `unquote?_quote`: a literal holds its text;
* `TextSearch`, **`Placement.searched`**: what the filters that search ask for.
-/

namespace Targeting

/-! ## Patterns -/

/-- What a pattern matches as a whole: a percent sign stands for any text, an underscore for any one
character, and every other character for itself. -/
inductive Like : List Char → List Char → Prop
  | nil : Like [] []
  | skip {ps s : List Char} (part : List Char) (h : Like ps s) : Like ('%' :: ps) (part ++ s)
  | any {ps s : List Char} (c : Char) (h : Like ps s) : Like ('_' :: ps) (c :: s)
  | self {ps s : List Char} (c : Char) (hpercent : c ≠ '%') (hunderscore : c ≠ '_') (h : Like ps s) :
    Like (c :: ps) (c :: s)

/-- A character of patterns that stands for others. -/
def isWildcard (c : Char) : Bool := c = '%' || c = '_'

/-- **A pattern in two parts** matches what falls into a match of the first and one of the second. -/
theorem Like.append_iff {ps qs s : List Char} :
    Like (ps ++ qs) s ↔ ∃ t u, s = t ++ u ∧ Like ps t ∧ Like qs u := by
  constructor
  · intro h
    induction ps generalizing s with
    | nil => exact ⟨[], s, rfl, .nil, h⟩
    | cons p ps ih =>
      cases h with
      | skip part h =>
        obtain ⟨t, u, rfl, ht, hu⟩ := ih h
        exact ⟨part ++ t, u, (List.append_assoc part t u).symm, .skip part ht, hu⟩
      | any c h =>
        obtain ⟨t, u, rfl, ht, hu⟩ := ih h
        exact ⟨c :: t, u, rfl, .any c ht, hu⟩
      | self _ hpercent hunderscore h =>
        obtain ⟨t, u, rfl, ht, hu⟩ := ih h
        exact ⟨p :: t, u, rfl, .self p hpercent hunderscore ht, hu⟩
  · rintro ⟨t, u, rfl, ht, hu⟩
    induction ht with
    | nil => exact hu
    | skip part _ ih => exact List.append_assoc part _ u ▸ .skip part ih
    | any c _ ih => exact .any c ih
    | self c hpercent hunderscore _ ih => exact .self c hpercent hunderscore ih

theorem like_percent {s : List Char} : Like ['%'] s := by
  simpa using Like.skip s .nil

theorem like_cons_percent_iff {ps s : List Char} :
    Like ('%' :: ps) s ↔ ∃ part t, s = part ++ t ∧ Like ps t := by
  constructor
  · intro h
    cases h with
    | skip part h => exact ⟨part, _, rfl, h⟩
    | self c hpercent => exact absurd rfl hpercent
  · rintro ⟨part, t, rfl, h⟩
    exact .skip part h

/-- **Between two percent signs** a pattern matches what has a match of it inside. -/
theorem like_between_iff {ps s : List Char} :
    Like ('%' :: (ps ++ ['%'])) s ↔ ∃ part, part <:+: s ∧ Like ps part := by
  rw [like_cons_percent_iff]
  constructor
  · rintro ⟨before, t, rfl, h⟩
    obtain ⟨part, after, rfl, hpart, -⟩ := Like.append_iff.mp h
    exact ⟨part, ⟨before, after, List.append_assoc before part after⟩, hpart⟩
  · rintro ⟨part, ⟨before, after, rfl⟩, hpart⟩
    exact ⟨before, part ++ after, List.append_assoc before part after,
      Like.append_iff.mpr ⟨part, after, rfl, hpart, like_percent⟩⟩

/-- A pattern matches its own text. -/
theorem like_refl (ps : List Char) : Like ps ps := by
  induction ps with
  | nil => exact .nil
  | cons p ps ih =>
    by_cases hpercent : p = '%'
    · exact hpercent ▸ .skip ['%'] ih
    · by_cases hunderscore : p = '_'
      · exact hunderscore ▸ .any '_' ih
      · exact .self p hpercent hunderscore ih

/-- A pattern without wildcards matches nothing else. -/
theorem like_iff_eq {ps s : List Char} (h : ∀ c ∈ ps, isWildcard c = false) : Like ps s ↔ s = ps := by
  constructor
  · intro hlike
    induction hlike with
    | nil => rfl
    | skip => exact absurd (h '%' List.mem_cons_self) (by decide)
    | any => exact absurd (h '_' List.mem_cons_self) (by decide)
    | self c _ _ _ ih => rw [ih fun d hd => h d (List.mem_cons_of_mem c hd)]
  · rintro rfl
    exact like_refl s

/-! ## Wildcards -/

/-- A match of a pattern without any wildcard in it: percent signs are left out, and a letter stands for
each underscore. -/
def counterText : List Char → List Char
  | [] => []
  | c :: cs =>
    if c = '%' then counterText cs else if c = '_' then 'x' :: counterText cs else c :: counterText cs

theorem like_counterText (ps : List Char) : Like ps (counterText ps) := by
  induction ps with
  | nil => exact .nil
  | cons p ps ih =>
    rw [counterText]
    split
    · next h => exact h ▸ .skip [] ih
    · next hpercent =>
      split
      · next h => exact h ▸ .any 'x' ih
      · next hunderscore => exact .self p hpercent hunderscore ih

theorem isWildcard_of_mem_counterText {ps : List Char} {c : Char} (h : c ∈ counterText ps) :
    isWildcard c = false := by
  induction ps with
  | nil => cases h
  | cons p ps ih =>
    rw [counterText] at h
    split at h
    · exact ih h
    · next hpercent =>
      split at h
      · rcases List.mem_cons.mp h with rfl | h
        · decide
        · exact ih h
      · next hunderscore =>
        rcases List.mem_cons.mp h with rfl | h
        · simp [isWildcard, hpercent, hunderscore]
        · exact ih h

/-- **Searching for a text finds just the texts with it inside** exactly if it has no wildcard. -/
theorem like_iff_infix_iff {ps : List Char} :
    (∀ s, Like ('%' :: (ps ++ ['%'])) s ↔ ps <:+: s) ↔ ∀ c ∈ ps, isWildcard c = false := by
  constructor
  · intro h c hc
    -- The counter-text is found, and all that it has inside is free of wildcards.
    have hinside := (h (counterText ps)).mp
      (like_between_iff.mpr ⟨counterText ps, List.infix_rfl, like_counterText ps⟩)
    exact isWildcard_of_mem_counterText (hinside.mem hc)
  · intro h s
    rw [like_between_iff]
    constructor
    · rintro ⟨part, hpart, hlike⟩
      exact (like_iff_eq h).mp hlike ▸ hpart
    · exact fun hinside => ⟨ps, hinside, like_refl ps⟩

/-! ## Literals -/

theorem halveQuotes?_doubleQuotes (cs : List Char) : halveQuotes? (doubleQuotes cs) = some cs := by
  induction cs with
  | nil => rfl
  | cons c cs ih =>
    rw [doubleQuotes]
    split
    · next h => rw [halveQuotes?, ih, h, Option.map_some]
    · next h =>
      rw [halveQuotes?, if_neg h, ih, Option.map_some]
      exact fun _ hc _ => h hc

/-- A literal holds its text. -/
theorem unquote?_quote (s : String) : unquote? (quote s) = some s := by
  have hbetween : betweenQuotes? ('\'' :: (doubleQuotes s.toList ++ ['\''])) =
      some (doubleQuotes s.toList) := by
    simp [betweenQuotes?]
  rw [unquote?, quote, String.toList_ofList, hbetween, Option.bind_some, halveQuotes?_doubleQuotes,
    Option.map_some, String.ofList_toList]

/-! ## Filters that search -/

/-- The two ways to search a column: for what has a text, and for what lacks it. -/
inductive TextSearch
  | has
  | lacks

namespace TextSearch

/-- The operator of a filter that searches. -/
def operator : TextSearch → Operator
  | has => .contains
  | lacks => .notContains

/-- The keyword before the pattern. -/
def keyword : TextSearch → String
  | has => " LIKE "
  | lacks => " NOT LIKE "

/-- What is asked of a fact. -/
def Asks : TextSearch → Prop → Prop
  | has, fact => fact
  | lacks, fact => ¬ fact

theorem asks_congr (k : TextSearch) {P Q : Prop} : (k.Asks P ↔ k.Asks Q) ↔ (P ↔ Q) := by
  cases k with
  | has => exact Iff.rfl
  | lacks => exact not_iff_not

theorem sql_single (k : TextSearch) (v : Value) (column : String) :
    (Comparison.single k.operator v).sql column =
      [.text (column ++ k.keyword), .operand (Comparison.pattern (Comparison.searchText v))] := by
  cases k <;> rfl

theorem operator_ne_list (k : TextSearch) : k.operator ≠ .isIn ∧ k.operator ≠ .notIn := by
  cases k <;> decide

/-- What the SQL of a search for a text on a column is, and what it finds. -/
structure Finds (k : TextSearch) (column text : String) (q : Sql) : Prop where
  /-- The pattern is a parameter, -/
  bound : ∀ d, q.write d .bound =
    ⟨column ++ k.keyword ++ d.placeholder 1, [.string ("%" ++ text ++ "%")]⟩
  /-- or it is the text of a literal, -/
  inline : ∀ d, q.write d .inline = ⟨column ++ k.keyword ++ quote ("%" ++ text ++ "%"), []⟩
  literal : unquote? (quote ("%" ++ text ++ "%")) = some ("%" ++ text ++ "%")
  /-- and it matches what has a match of the text inside, -/
  found : ∀ s : String, k.Asks (Like ("%" ++ text ++ "%").toList s.toList) ↔
    k.Asks (∃ part, part <:+: s.toList ∧ Like text.toList part)
  /-- so all that has the text itself inside. -/
  complete : ∀ s : String, text.toList <:+: s.toList → Like ("%" ++ text ++ "%").toList s.toList
  /-- It asks for the text itself exactly if there is no wildcard in it. -/
  exact_iff : (∀ s : String, k.Asks (Like ("%" ++ text ++ "%").toList s.toList) ↔
    k.Asks (text.toList <:+: s.toList)) ↔ '%' ∉ text.toList ∧ '_' ∉ text.toList

theorem toList_pattern (text : String) : ("%" ++ text ++ "%").toList = '%' :: (text.toList ++ ['%']) := by
  simp [String.toList_append]

theorem forall_isWildcard_iff {cs : List Char} :
    (∀ c ∈ cs, isWildcard c = false) ↔ '%' ∉ cs ∧ '_' ∉ cs := by
  constructor
  · exact fun h => ⟨fun hc => absurd (h _ hc) (by decide), fun hc => absurd (h _ hc) (by decide)⟩
  · rintro ⟨hpercent, hunderscore⟩ c hc
    simp only [isWildcard, Bool.or_eq_false_iff, decide_eq_false_iff_not]
    exact ⟨fun h => hpercent (h ▸ hc), fun h => hunderscore (h ▸ hc)⟩

theorem finds (k : TextSearch) (column text : String) :
    k.Finds column text [.text (column ++ k.keyword), .operand (Comparison.pattern text)] where
  bound d := by simp [Sql.write, Sql.bound, Sql.operands, Comparison.pattern]
  inline d := by simp [Sql.write, Sql.inline, Comparison.pattern, Value.literal]
  literal := unquote?_quote _
  found s := by rw [asks_congr, toList_pattern, like_between_iff]
  complete s h := by
    rw [toList_pattern]
    exact like_between_iff.mpr ⟨_, h, like_refl _⟩
  exact_iff := by
    simp only [asks_congr, toList_pattern]
    rw [← forall_isWildcard_iff, ← like_iff_infix_iff]
    constructor
    · exact fun h s => by simpa using h (String.ofList s)
    · exact fun h s => h s.toList

end TextSearch

/-- **What filters that search ask for**, whenever they compile: the column of the field is searched for the
text of the operand. -/
theorem Placement.searched (p : Placement) (strict : Bool) (path : String) (k : TextSearch) (f : Filter)
    (hop : f.operator? = some k.operator) {c : Condition} {ws : List Warning}
    (h : p.compileFilter strict path f = .ok (c, ws)) :
    ∃ field, p.object.StandsFor f.field field ∧
      k.Finds (p.column field) (Comparison.searchText f.operand.toValue) c.sql := by
  obtain ⟨-, -, field, cmp, hasks, rfl⟩ := p.compileFilter_eq_ok_iff.mp h
  have hchosen : f.chosen = k.operator := by rw [Filter.chosen, hop, Option.getD_some]
  refine ⟨field, (resolveFor_eq_ok_iff.mp hasks.resolved).1, ?_⟩
  have hsql : (Condition.compare (p.column field) cmp).sql = cmp.sql (p.column field) := rfl
  rcases Comparison.build_eq_ok (hchosen ▸ hasks.built) with ⟨-, rfl⟩ | ⟨_, -, ⟨hlist, -⟩ | ⟨hlist, -⟩⟩
  · rw [hsql, k.sql_single]
    exact k.finds _ _
  · exact absurd hlist k.operator_ne_list.1
  · exact absurd hlist k.operator_ne_list.2

/-- The contacts of the sample, searched for directors. -/
theorem Placement.directors_searched :
    let p : Placement := ⟨Sample.contacts, "p", none⟩
    (Sample.filter "job_title" .contains "Director").operator? = some TextSearch.has.operator ∧
      ∃ c ws, p.compileFilter false "contactFilters[0]" (Sample.filter "job_title" .contains "Director") =
          .ok (c, ws) ∧
        ∃ field, p.object.StandsFor "job_title" field ∧
          TextSearch.has.Finds (p.column field) "Director" c.sql := by
  have hop : (Sample.filter "job_title" .contains "Director").operator? = some TextSearch.has.operator := by
    decide
  exact ⟨hop, _, _, rfl,
    Placement.searched ⟨Sample.contacts, "p", none⟩ false "contactFilters[0]" .has _ hop rfl⟩

/-- **A percent sign in the text stands for any text**: companies are searched for `100%`, and one is found
that does not have it in its name. -/
theorem Placement.percent_finds_more :
    let p : Placement := { object := Sample.companies, label := "c" }
    (∃ c ws, p.compileFilter false "companyFilters[0]" (Sample.filter "company_name" .contains "100%") =
        .ok (c, ws) ∧
      c.sql.write .postgres .bound = ⟨"c.company_name LIKE $1", [.string "%100%%"]⟩ ∧
      c.sql.write .postgres .inline = ⟨"c.company_name LIKE '%100%%'", []⟩) ∧
    ¬ ∀ v s : String, Like ("%" ++ v ++ "%").toList s.toList ↔ v.toList <:+: s.toList := by
  refine ⟨⟨_, _, rfl, rfl, rfl⟩, fun h => ?_⟩
  have hmatch : Like "100%".toList "100 people".toList := by
    have hpattern : "100%".toList = ['1', '0', '0'] ++ ['%'] := by decide
    have htext : "100 people".toList = ['1', '0', '0'] ++ " people".toList := by decide
    rw [hpattern, htext]
    exact Like.append_iff.mpr ⟨_, _, rfl, like_refl _, like_percent⟩
  have hinside := (h "100%" "100 people").mp
    (by rw [TextSearch.toList_pattern]; exact like_between_iff.mpr ⟨_, List.infix_rfl, hmatch⟩)
  exact absurd (hinside.mem (a := '%') (by decide)) (by decide)

end Targeting
