import Targeting.Proofs.Writing

/-!
# Statements under all options

A listing, counts and the two sides of a preview are written for a dialect and in one of two ways. Neither
changes the query itself: whatever the writer does at the operands, it writes the same segments of text
around them.

* `OneQuery`: a statement is the same query under all options, and fails under all of them or none;
* `oneQuery_of_written`: a statement that is written as its query is;
* **`Audience.statements_oneQuery`**: all four statements are.
-/

namespace Targeting

/-! ## The same query under all options -/

/-- The numbered places of a dialect for so many operands. -/
def Dialect.places (d : Dialect) (n : Nat) : List String := (List.range' 1 n).map d.placeholder

/-- A statement fails with one error under all dialects and value modes, or is one sequence of segments
under all of them: with places for the parameters in between or with their literals. -/
def OneQuery (statement : CompileOptions → Except Error Statement) (o : CompileOptions) : Prop :=
  (∃ e, ∀ d mode, statement ((o.withDialect d).withValueMode mode) = .error e) ∨
    ∃ (segments : List String) (params : List Value) (warnings : List String),
      segments.length = params.length + 1 ∧ ∀ d,
        statement ((o.withDialect d).withValueMode .bound) =
            .ok { sql := weave segments (d.places params.length), params, warnings } ∧
          statement ((o.withDialect d).withValueMode .inline) =
            .ok { sql := weave segments (params.map Value.literal), params := [], warnings }

/-- The texts of a query for a dialect in both value modes. -/
theorem Query.write_eq_weave (q : Query) (o : CompileOptions) (d : Dialect) :
    q.write ((o.withDialect d).withValueMode .bound) =
        { sql := weave q.sql.segments (d.places q.sql.operands.length), params := q.sql.operands,
          warnings := q.warnings.map Warning.text } ∧
      q.write ((o.withDialect d).withValueMode .inline) =
        { sql := weave q.sql.segments (q.sql.operands.map Value.literal), params := [],
          warnings := q.warnings.map Warning.text } := by
  obtain ⟨hb, hi⟩ := q.sql.write_eq_weave d
  constructor
  · simp only [Query.write, CompileOptions.withValueMode, CompileOptions.withDialect, hb,
      Sql.Written.statement, Dialect.places]
  · simp only [Query.write, CompileOptions.withValueMode, CompileOptions.withDialect, hi,
      Sql.Written.statement]

/-- **A statement is one query** if it is written as a query that is the same in both value modes. -/
theorem oneQuery_of_written {α : Type} {statement : CompileOptions → Except Error Statement}
    {o : CompileOptions} (compile : CompilerSettings → Except Error α)
    (query : CompilerSettings → α → Query)
    (hwritten : ∀ o, statement o = (compile o.compiler).map fun x => (query o.compiler x).write o)
    (hmode : ∀ mode, compile { o.compiler with valueMode := mode } = compile o.compiler ∧
      query { o.compiler with valueMode := mode } = query o.compiler) :
    OneQuery statement o := by
  have hquery : ∀ d mode, statement ((o.withDialect d).withValueMode mode) =
      (compile o.compiler).map fun x =>
        (query o.compiler x).write ((o.withDialect d).withValueMode mode) := by
    intro d mode
    obtain ⟨hcompile, hquery⟩ := hmode mode
    rw [hwritten, ← hcompile, ← hquery]
    rfl
  cases h : compile o.compiler with
  | error e =>
    left
    refine ⟨e, fun d mode => ?_⟩
    rw [hquery, h]
    rfl
  | ok x =>
    right
    generalize hq : query o.compiler x = q
    refine ⟨q.sql.segments, q.sql.operands, q.warnings.map Warning.text, q.sql.length_segments,
      fun d => ?_⟩
    obtain ⟨hb, hi⟩ := q.write_eq_weave o d
    simp only [hquery, h, hq, Except.map, hb, hi, and_self]

namespace Audience

variable (a : Audience) (fs : FilterSet) (limit : Option Nat) (o : CompileOptions)

theorem listing_oneQuery : OneQuery (a.listingStatement fs limit) o :=
  oneQuery_of_written (a.listing · fs limit) (fun _ => id) (a.listingStatement_eq fs limit)
    fun _ => ⟨rfl, rfl⟩

theorem counts_oneQuery : OneQuery (a.countsStatement fs) o :=
  oneQuery_of_written (a.stage · fs) (fun _ => Stage.counts) (a.countsStatement_of_stage fs)
    fun _ => ⟨rfl, rfl⟩

theorem company_oneQuery : OneQuery (a.companyStatement fs limit) o :=
  oneQuery_of_written (a.stage · fs) (fun o s => s.companyPreview (o.previewRows limit))
    (a.companyStatement_of_stage fs limit) fun _ => ⟨rfl, rfl⟩

theorem contact_oneQuery : OneQuery (a.contactStatement fs limit) o :=
  oneQuery_of_written (a.stage · fs) (fun o s => s.contactPreview (o.previewRows limit))
    (a.contactStatement_of_stage fs limit) fun _ => ⟨rfl, rfl⟩

/-- **All statements are one query under all options**, and the listing with its operands written in is
the listing with places in which each place is filled by the literal of its parameter. -/
theorem statements_oneQuery :
    OneQuery (a.listingStatement fs limit) o ∧ OneQuery (a.countsStatement fs) o ∧
      OneQuery (a.companyStatement fs limit) o ∧ OneQuery (a.contactStatement fs limit) o ∧
      ((∃ e, a.listingText fs limit o = .error e ∧
          a.listingStatement fs limit (o.withValueMode .bound) = .error e) ∨
        ∃ segments s, a.listingStatement fs limit (o.withValueMode .bound) = .ok s ∧
          segments.length = s.params.length + 1 ∧
          s.sql = weave segments (o.dialect.places s.params.length) ∧
          a.listingText fs limit o = .ok (weave segments (s.params.map Value.literal))) := by
  refine ⟨a.listing_oneQuery fs limit o, a.counts_oneQuery fs o, a.company_oneQuery fs limit o,
    a.contact_oneQuery fs limit o, ?_⟩
  rcases a.listing_oneQuery fs limit o with ⟨e, he⟩ | ⟨segments, params, warnings, hlength, hs⟩
  · left
    refine ⟨e, ?_, he o.dialect .bound⟩
    rw [listingText]
    exact congrArg (Except.map Statement.sql) (he o.dialect .inline)
  · right
    obtain ⟨hb, hi⟩ := hs o.dialect
    refine ⟨segments, _, hb, hlength, rfl, ?_⟩
    rw [listingText]
    exact congrArg (Except.map Statement.sql) hi

end Audience

end Targeting
