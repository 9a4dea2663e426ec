import Mathlib.Data.List.Induction
import Targeting.Proofs.Alphabet
import Targeting.Proofs.Operand
import Targeting.Proofs.Parameters
import Targeting.Proofs.Spacing
import Targeting.Proofs.Spelling

/-!
# Places filled by literals

Written with literals, a statement has the tokens that it has with places, except that every place is
filled by the tokens of its parameter: a text by a single text literal that holds this very text, and a
number by a number with an optional sign. So no operand can get out of its literal.

* `Fills`: the tokens that an operand is written as; `Filled`: places filled by operands;
* `Lexer.Calm`: states in which no quote and no comment is open; `Lexer.lex_text`: what text leads to;
* **`Sql.filled`**: spaced SQL, filled;
* **`Audience.inline_fills_places`**: all statements with literals.
-/

namespace Targeting

/-- The tokens that a text or a number is written as. -/
inductive Fills : Value → List Token → Prop
  | text (s : String) : Fills (.string s) [.literal s]
  | integer (n : Int64) {ts : List Token} (h : IsNumber ts) : Fills (.int n) ts
  | double (x : Binary64.Finite) {ts : List Token} (h : IsNumber ts) : Fills (.float (.finite x)) ts

/-- Tokens in which the places, numbered from `i` on, are filled by operands in order; all other tokens
stay as they are. -/
inductive Filled (d : Dialect) : Nat → List Token → List Value → List Token → Prop
  | nil (i : Nat) : Filled d i [] [] []
  | token {i : Nat} {t : Token} {ts us : List Token} {vs : List Value} (ht : ∀ s, t ≠ .place s)
    (h : Filled d i ts vs us) : Filled d i (t :: ts) vs (t :: us)
  | place {i : Nat} {v : Value} {ts us filling : List Token} {vs : List Value} (hv : Fills v filling)
    (h : Filled d (i + 1) ts vs us) :
    Filled d i (.place (d.placeholder i) :: ts) (v :: vs) (filling ++ us)

/-- There is no place among the tokens. -/
def NoPlace (ts : List Token) : Prop := ∀ t ∈ ts, ∀ s, t ≠ .place s

theorem NoPlace.filled {ts : List Token} (h : NoPlace ts) {d : Dialect} {i : Nat}
    {us us' : List Token} {vs : List Value} (hrest : Filled d i us vs us') :
    Filled d i (ts ++ us) vs (ts ++ us') := by
  induction ts with
  | nil => exact hrest
  | cons t ts ih =>
    obtain ⟨ht, hts⟩ := List.forall_mem_cons.mp h
    exact .token ht (ih hts)

/-! ## Text -/

namespace Lexer

/-- Neither a quote nor a comment is open, and no place is begun. -/
inductive Calm : Lexer → Prop
  | between : Calm between
  | run {seen : List Char} (h : ∀ c ∈ seen, c ≠ '$') : Calm (run seen)

theorem noPlace_ofRun {cs : List Char} (h : ∀ c ∈ cs, c ≠ '$') : NoPlace [.ofRun cs] := by
  have hrun : ∀ s, Token.ofRun cs ≠ .place s := by
    intro s
    cases cs with
    | nil => simp [Token.ofRun]
    | cons c cs =>
      have hc : c ≠ '$' := h c List.mem_cons_self
      simp only [Token.ofRun, List.head?_cons, if_neg hc]
      split <;> simp
  exact fun t ht => List.mem_singleton.mp ht ▸ hrun

theorem Calm.noPlace_ended {l : Lexer} (h : l.Calm) : NoPlace l.ended := by
  cases h with
  | between => exact List.forall_mem_nil _
  | run h => exact noPlace_ofRun fun c hc => h c (List.mem_reverse.mp hc)

/-- What is set apart ends what a calm lexer has begun. -/
theorem Calm.lex_apart {l : Lexer} (h : l.Calm) {rest : List Char} (hrest : Apart rest) :
    l.lex rest = l.ended ++ Lexer.between.lex rest := by
  refine lex_ended l fun c hc => ?_
  cases h with
  | between => rfl
  | run h =>
    rw [next?, isRunChar_of_apart hrest c hc]
    rfl

theorem ne_dollar_of_isTextChar {c : Char} (h : isTextChar c = true) : c ≠ '$' := by
  rintro rfl
  exact absurd h (by decide)

/-- A character of text begins no place, and opens neither a quote nor a comment. -/
theorem start_text {c : Char} (h : isTextChar c = true) :
    NoPlace (start c).1 ∧ (start c).2.Calm ∧ (c = ' ' ∨ c = '(' → (start c).2 = between) := by
  cases hrun : isRunChar c with
  | true =>
    have hstart : start c = ([], run [c]) := by rw [start, if_pos hrun]
    rw [hstart]
    refine ⟨List.forall_mem_nil _, .run fun d hd => ?_, ?_⟩
    · rw [List.mem_singleton.mp hd]
      exact ne_dollar_of_isTextChar h
    · rintro (rfl | rfl)
      · cases hrun
      · cases hrun
  | false =>
    have hname : isNameChar c = false := by
      cases hc : isNameChar c with
      | false => rfl
      | true => exact absurd (isRunChar_of_isNameChar hc) (by rw [hrun]; decide)
    rw [isTextChar, hname, Bool.false_or, List.contains_iff_mem] at h
    simp only [List.mem_cons, List.not_mem_nil, or_false] at h
    rcases h with rfl | rfl | rfl | rfl | rfl | rfl | rfl | rfl | rfl | rfl
    · exact ⟨List.forall_mem_nil _, .between, fun _ => rfl⟩
    · cases hrun
    all_goals exact ⟨List.forall_mem_singleton.mpr (by simp), .between, fun _ => rfl⟩

theorem Calm.lex_char {l : Lexer} (h : l.Calm) {c : Char} (hc : isTextChar c = true) :
    ∃ ts, ∃ m : Lexer, NoPlace ts ∧ m.Calm ∧ (c = ' ' ∨ c = '(' → m = Lexer.between) ∧
      ∀ rest, l.lex (c :: rest) = ts ++ m.lex rest := by
  obtain ⟨hplace, hcalm, hopens⟩ := start_text hc
  cases h with
  | between => exact ⟨_, _, hplace, hcalm, hopens, fun rest => lex_start c rest⟩
  | @run seen h =>
    cases hrun : isRunChar c with
    | true =>
      have hnext : (Lexer.run seen).next? c = some (.run (c :: seen)) := by rw [next?, if_pos hrun]
      refine ⟨[], .run (c :: seen), List.forall_mem_nil _, .run ?_, ?_, fun rest => lex_next hnext rest⟩
      · exact List.forall_mem_cons.mpr ⟨ne_dollar_of_isTextChar hc, h⟩
      · rintro (rfl | rfl)
        · cases hrun
        · cases hrun
    | false =>
      have hnext : (Lexer.run seen).next? c = none := by
        rw [next?, hrun]
        rfl
      refine ⟨(Lexer.run seen).ended ++ (start c).1, _, ?_, hcalm, hopens, fun rest => ?_⟩
      · exact List.forall_mem_append.mpr ⟨(Calm.run h).noPlace_ended, hplace⟩
      · rw [lex, hnext, List.append_assoc]

/-- **Text keeps a lexer calm**, and where it opens the next token starts behind it. -/
theorem Calm.lex_text {cs : List Char} (hcs : ∀ c ∈ cs, isTextChar c = true) {l : Lexer}
    (h : l.Calm) : ∃ ts, ∃ m : Lexer, NoPlace ts ∧ m.Calm ∧
      (cs.getLast? = some ' ' ∨ cs.getLast? = some '(' → m = Lexer.between) ∧
      ∀ rest, l.lex (cs ++ rest) = ts ++ m.lex rest := by
  -- The last character decides where the lexer stands, so the induction is from the end.
  induction cs using List.reverseRecOn with
  | nil =>
    refine ⟨[], l, List.forall_mem_nil _, h, ?_, fun rest => rfl⟩
    rintro (hlast | hlast)
    · cases hlast
    · cases hlast
  | append_singleton cs c ih =>
    obtain ⟨hcs, hc⟩ := List.forall_mem_append.mp hcs
    obtain ⟨ts, m, hplace, hcalm, _, hlex⟩ := ih hcs
    obtain ⟨us, n, hplace', hcalm', hopens, hlex'⟩ := hcalm.lex_char (hc c List.mem_cons_self)
    refine ⟨ts ++ us, n, List.forall_mem_append.mpr ⟨hplace, hplace'⟩, hcalm', ?_, fun rest => ?_⟩
    · rw [List.getLast?_concat, Option.some_inj, Option.some_inj]
      exact hopens
    · rw [List.append_assoc, hlex, List.singleton_append, hlex', List.append_assoc]

end Lexer

/-! ## Operands -/

namespace Value

theorem exists_fills {v : Value} (h : v.isFilling = true) : ∃ ts, Fills v ts ∧ Lexes v.literal ts := by
  have hscalar : v.isScalar = true := by
    cases v with
    | list items => cases h
    | _ => rfl
  obtain ⟨ts, hspelled, hlexes⟩ := lexes_literal hscalar
  refine ⟨ts, ?_, hlexes⟩
  unfold isFilling at h
  split at h
  · rw [Spelled] at hspelled
    exact hspelled ▸ .text _
  · exact .integer _ hspelled
  · exact .double _ hspelled
  · cases h

end Value

/-! ## SQL -/

namespace Sql

theorem StartsApart.apart_textWith {q : Sql} (h : StartsApart q) (w : Nat → Value → String) (i : Nat) :
    Apart (q.textWith w i).toList := by
  cases q with
  | nil => exact Apart.nil
  | cons piece rest =>
    cases piece with
    | text s =>
      have hs : SetsOff s := h
      exact (hs.append _).2
    | operand v => exact h.elim

/-- From a calm lexer on, spaced SQL with literals has the tokens of the SQL with places, filled. -/
theorem filled_from {q : Sql} (htext : q.IsText) (hspaced : q.Spaced)
    (hvalues : ∀ v ∈ q.operands, v.isFilling = true) (d : Dialect) (i : Nat) {l : Lexer} (hl : l.Calm)
    (hstart : StartsOpen q → l = .between) :
    ∃ ts us, Filled d i ts q.operands us ∧ ∀ rest, Apart rest →
      l.lex ((q.textWith (mark d .bound) i).toList ++ rest) = ts ++ Lexer.between.lex rest ∧
      l.lex ((q.textWith (mark d .inline) i).toList ++ rest) = us ++ Lexer.between.lex rest := by
  induction q generalizing i l with
  | nil =>
    have hended := hl.noPlace_ended.filled (.nil i) (d := d)
    rw [List.append_nil] at hended
    exact ⟨_, _, hended, fun rest hrest => ⟨hl.lex_apart hrest, hl.lex_apart hrest⟩⟩
  | cons piece rest ih =>
    cases piece with
    | text s =>
      obtain ⟨hs, hrest⟩ := isText_text.mp htext
      obtain ⟨hopens, hspaced⟩ := hspaced
      obtain ⟨ts, m, hplace, hcalm, hbetween, hlex⟩ := hl.lex_text hs
      obtain ⟨us, us', hfilled, hlexes⟩ :=
        ih hrest hspaced hvalues i hcalm fun hstarts => hbetween (hopens hstarts)
      refine ⟨ts ++ us, ts ++ us', hplace.filled hfilled, fun more hmore => ?_⟩
      obtain ⟨hbound, hinline⟩ := hlexes more hmore
      constructor
      · rw [textWith, String.toList_append, List.append_assoc, hlex, hbound, List.append_assoc]
      · rw [textWith, String.toList_append, List.append_assoc, hlex, hinline, List.append_assoc]
    | operand v =>
      obtain ⟨hapart, hspaced⟩ := hspaced
      obtain ⟨hv, hvs⟩ := List.forall_mem_cons.mp hvalues
      obtain ⟨filling, hfills, hliteral⟩ := v.exists_fills hv
      obtain ⟨us, us', hfilled, hlexes⟩ :=
        ih (isText_operand.mp htext) hspaced hvs (i + 1) .between fun _ => rfl
      have hbetween : l = .between := hstart trivial
      refine ⟨_, _, .place hfills hfilled, fun more hmore => ?_⟩
      obtain ⟨hbound, hinline⟩ := hlexes more hmore
      rw [hbetween]
      constructor
      · rw [textWith, String.toList_append, List.append_assoc, mark,
          d.lexes_placeholder i _ ((hapart.apart_textWith _ _).append hmore), hbound]
        rfl
      · rw [textWith, String.toList_append, List.append_assoc, mark,
          hliteral _ ((hapart.apart_textWith _ _).append hmore), hinline, List.append_assoc]

/-- **Spaced SQL with literals has the tokens of the SQL with places, filled.** -/
theorem filled {q : Sql} (htext : q.IsText) (hspaced : q.Spaced)
    (hvalues : ∀ v ∈ q.operands, v.isFilling = true) (d : Dialect) (i : Nat) :
    Filled d i (tokens (q.textWith (mark d .bound) i)) q.operands
      (tokens (q.textWith (mark d .inline) i)) := by
  obtain ⟨ts, us, hfilled, hlexes⟩ := filled_from htext hspaced hvalues d i .between fun _ => rfl
  have hbound : Lexes (q.textWith (mark d .bound) i) ts := fun rest hrest => (hlexes rest hrest).1
  have hinline : Lexes (q.textWith (mark d .inline) i) us := fun rest hrest => (hlexes rest hrest).2
  rw [hbound.tokens, hinline.tokens]
  exact hfilled

end Sql

/-! ## Statements -/

theorem Query.filled_write {q : Query} (htext : q.sql.IsText) (hspaced : q.sql.Spaced)
    (hvalues : ∀ v ∈ q.sql.operands, v.isFilling = true) (o : CompileOptions) :
    let bound := q.write (o.withValueMode .bound)
    Filled o.dialect 1 (tokens bound.sql) bound.params
      (tokens (q.write (o.withValueMode .inline)).sql) := by
  have hinline : (q.write (o.withValueMode .inline)).sql =
      q.sql.textWith (Sql.mark o.dialect .inline) 1 :=
    Sql.write_text o.dialect .inline q.sql
  simp only [hinline, q.write_bound o]
  exact Sql.filled htext hspaced hvalues o.dialect 1

/-- A statement with literals is the statement with places, each filled by its parameter. -/
def FillsPlaces (statement : CompileOptions → Except Error Statement) (o : CompileOptions) : Prop :=
  ∀ s, statement (o.withValueMode .inline) = .ok s → ∃ b, statement (o.withValueMode .bound) = .ok b ∧
    Filled o.dialect 1 (tokens b.sql) b.params (tokens s.sql)

namespace Audience

variable (a : Audience) {fs : FilterSet} (limit : Option Nat) (o : CompileOptions)

/-- The clause of a listing with literals is the clause with places, each filled by its parameter; all
else is the same text. -/
def ListingFillsPlaces (fs : FilterSet) : Prop :=
  ∀ s, a.listingStatement fs limit (o.withValueMode .inline) = .ok s → ∃ b plan company contact w₁ w₂,
    a.listingStatement fs limit (o.withValueMode .bound) = .ok b ∧
    JoinPlan.build a o.compiler.joinStrategy = .ok plan ∧
    plan.condition o.compiler a .parent fs.company = .ok (company, w₁) ∧
    plan.condition o.compiler a .child fs.contact = .ok (contact, w₂) ∧
    let clause := fun mode =>
      (Condition.conjunction (company ++ contact)).whereClause.textWith (Sql.mark o.dialect mode) 1
    let ending := limit.elim "" fun n => " LIMIT " ++ toString n
    b.sql = plan.listingHead ++ clause .bound ++ ending ∧
    s.sql = plan.listingHead ++ clause .inline ++ ending ∧
    Filled o.dialect 1 (tokens (clause .bound)) b.params (tokens (clause .inline))

variable {a}

theorem isFilling_of_stage (hflat : fs.isFlat = true) {st : Stage}
    (h : a.stage o.compiler fs = .ok st) :
    (∀ v ∈ st.parentCondition.whereClause.operands, v.isFilling = true) ∧
      ∀ v ∈ st.childCondition.whereClause.operands, v.isFilling = true := by
  obtain ⟨hcompany, hcontact⟩ := FilterSet.isFlat_iff.mp hflat
  obtain ⟨hops₁, hops₂, _, _, hasks₁, hasks₂, _⟩ := Stage.clauses_of_stage h o.dialect
  rw [hops₁, hops₂]
  exact ⟨hasks₁.isFilling_operands hcompany, hasks₂.isFilling_operands hcontact⟩

theorem counts_fillsPlaces (hflat : fs.isFlat = true) : FillsPlaces (a.countsStatement fs) o := by
  intro s h
  obtain ⟨st, hst, rfl⟩ := countsStatement_eq_ok_iff.mp h
  obtain ⟨hparent, hchild⟩ := isFilling_of_stage o hflat hst
  have hbound : a.countsStatement fs (o.withValueMode .bound) =
      .ok (st.counts.write (o.withValueMode .bound)) :=
    countsStatement_eq_ok_iff.mpr ⟨st, hst, rfl⟩
  refine ⟨_, hbound, Query.filled_write (vetted_of_stage hst).isText_counts st.spaced_counts ?_ o⟩
  simp only [Stage.counts, Stage.members, Stage.operands_qualified, Sql.operands_append, Sql.operands,
    List.append_nil]
  exact List.forall_mem_append.mpr ⟨hparent, hchild⟩

theorem company_fillsPlaces (hflat : fs.isFlat = true) :
    FillsPlaces (a.companyStatement fs limit) o := by
  intro s h
  obtain ⟨st, hst, rfl⟩ := companyStatement_eq_ok_iff.mp h
  obtain ⟨hparent, _⟩ := isFilling_of_stage o hflat hst
  have hbound : a.companyStatement fs limit (o.withValueMode .bound) =
      .ok ((st.companyPreview (o.compiler.previewRows limit)).write (o.withValueMode .bound)) :=
    companyStatement_eq_ok_iff.mpr ⟨st, hst, rfl⟩
  refine ⟨_, hbound, Query.filled_write ((vetted_of_stage hst).isText_companyPreview _)
    (st.spaced_companyPreview _) ?_ o⟩
  simp only [Stage.companyPreview, Stage.preview, Stage.operands_qualified, Sql.operands_append,
    Sql.operands, List.append_nil]
  exact hparent

theorem contact_fillsPlaces (hflat : fs.isFlat = true) :
    FillsPlaces (a.contactStatement fs limit) o := by
  intro s h
  obtain ⟨st, hst, rfl⟩ := contactStatement_eq_ok_iff.mp h
  obtain ⟨hparent, hchild⟩ := isFilling_of_stage o hflat hst
  have hbound : a.contactStatement fs limit (o.withValueMode .bound) =
      .ok ((st.contactPreview (o.compiler.previewRows limit)).write (o.withValueMode .bound)) :=
    contactStatement_eq_ok_iff.mpr ⟨st, hst, rfl⟩
  refine ⟨_, hbound, Query.filled_write ((vetted_of_stage hst).isText_contactPreview _)
    (st.spaced_contactPreview _) ?_ o⟩
  simp only [Stage.contactPreview, Stage.preview, Stage.members, Stage.operands_qualified,
    Sql.operands_append, Sql.operands, List.append_nil]
  exact List.forall_mem_append.mpr ⟨hparent, hchild⟩

theorem listing_fillsPlaces (hflat : fs.isFlat = true) : a.ListingFillsPlaces limit o fs := by
  intro s h
  rw [listingStatement_eq] at h
  obtain ⟨q, hq, rfl⟩ := map_eq_ok_iff.mp h
  have hbound : a.listingStatement fs limit (o.withValueMode .bound) =
      .ok (q.write (o.withValueMode .bound)) := by
    rw [listingStatement_eq]
    exact map_eq_ok_iff.mpr ⟨_, hq, rfl⟩
  obtain ⟨hparams, _, _, _, company, contact, _, _, _, _, hasks₁, hasks₂, _⟩ :=
    a.listing_carries fs limit o hbound
  obtain ⟨plan, cs, ds, w₁, w₂, hvalid, hplan, hcs, hds, rfl⟩ := listing_eq_ok hq
  obtain ⟨hcompany, hcontact⟩ := FilterSet.isFlat_iff.mp hflat
  have hnamed : (Condition.conjunction (cs ++ ds)).Named :=
    JoinPlan.named_conjunction hvalid hcs hds
  have hoperands : (Condition.conjunction (cs ++ ds)).whereClause.operands = fs.operands := by
    rw [← hparams, Query.write_bound]
    exact (operands_listing limit plan.listingHead _).symm
  have hvalues : ∀ v ∈ (Condition.conjunction (cs ++ ds)).whereClause.operands,
      v.isFilling = true := by
    rw [hoperands]
    exact List.forall_mem_append.mpr
      ⟨hasks₁.isFilling_operands hcompany, hasks₂.isFilling_operands hcontact⟩
  have hfilled := Sql.filled (Condition.isText_whereClause hnamed) (Condition.spaced_whereClause _)
    hvalues o.dialect 1
  refine ⟨_, plan, cs, ds, w₁, w₂, hbound, hplan, hcs, hds, ?_, ?_, ?_⟩
  · rw [Query.write_bound]
    exact textWith_listing limit _ _ _
  · exact (Sql.write_text o.dialect .inline _).trans (textWith_listing limit _ _ _)
  · rw [hparams, ← hoperands]
    exact hfilled

variable (a) in
/-- **No operand gets out of its place**: if all operands are texts, numbers and lists of these, the
tokens of a statement with literals are those of the statement with places, with each place filled by
the one text literal that holds its parameter, or by a number with an optional sign. -/
theorem inline_fills_places (hflat : fs.isFlat = true) :
    FillsPlaces (a.countsStatement fs) o ∧ FillsPlaces (a.companyStatement fs limit) o ∧
      FillsPlaces (a.contactStatement fs limit) o ∧ a.ListingFillsPlaces limit o fs :=
  ⟨counts_fillsPlaces o hflat, company_fillsPlaces limit o hflat, contact_fillsPlaces limit o hflat,
    listing_fillsPlaces limit o hflat⟩

/-- Filters whose operands end with quotes, stand next to each other, and try to open comments. -/
def breakingOut : FilterSet where
  company :=
    [{ Sample.filter "country" .isIn "" with
        operand := .list [.string "'", .string "''", .string "O'Neil' --"] },
      { Sample.filter "employee_count" .greaterThan "" with
        operand := .number (.integer ⟨-5, by decide⟩) }]
  contact := [Sample.filter "job_title" .contains "'; DROP TABLE contacts; /*"]

/-- Quotes and comments in operands do not change the tokens around them in the sample. -/
theorem sample_inline_fills_places :
    breakingOut.isFlat = true ∧
      (∃ s b, Sample.audience.countsStatement breakingOut (({} : CompileOptions).withValueMode .inline) =
          .ok s ∧
        Sample.audience.countsStatement breakingOut (({} : CompileOptions).withValueMode .bound) =
          .ok b ∧ Filled .postgres 1 (tokens b.sql) b.params (tokens s.sql)) ∧
      FillsPlaces (Sample.audience.companyStatement breakingOut none) {} ∧
      FillsPlaces (Sample.audience.contactStatement breakingOut none) {} ∧
      Sample.audience.ListingFillsPlaces none {} breakingOut := by
  have hflat : breakingOut.isFlat = true := by decide
  obtain ⟨hcounts, hcompany, hcontact, hlisting⟩ :=
    Sample.audience.inline_fills_places none {} hflat
  obtain ⟨b, hb, hfilled⟩ := hcounts _ rfl
  exact ⟨hflat, ⟨_, b, rfl, hb, hfilled⟩, hcompany, hcontact, hlisting⟩

end Audience

end Targeting
