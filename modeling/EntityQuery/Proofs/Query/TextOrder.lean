import Mathlib
import EntityQuery.Proofs.Query.Registering

/-!
# Parameters are registered in the order of the text

A SELECT block reads its FROM clause first, then goes back to its start to read its select
list, then goes on after the FROM clause. Its parameters are registered in the order of the
text all the same: the FROM clause holds no parameter, so going back to the start of the block
forgets none, and the select list ends at a FROM at the block's depth, which is the one the
FROM clause starts at or one after it, so the point after the FROM clause has no parameter
before it that the select list has not registered.

Every function of the grammar keeps a reader fitting (`Reader.Fits`): its graph holds the
distinct parameters of the text before its point, in the order of their first occurrence.
Each function ends at a known depth of parentheses, the one it starts at but for `trimCall`,
which takes the `)` its caller's `(` opened. `Grammar.InTextOrder n` bundles a triple for each
function with `n` levels of nesting left, proved for all of them at once by induction on `n`
as for soundness.
-/

open Std.Do

set_option mvcgen.warning false

namespace EntityQuery

open Reading

namespace Grammar

variable (s₀ : Reader)

/-! ### Steps that take no parameter -/

theorem dottedRest_passes (fuel : Nat) (name : String) :
  ⦃fun s => ⌜s.OnText ∧ Passes s₀ s 0⌝⦄
  dottedRest fuel name
  ⦃⇓? _ s => ⌜s.OnText ∧ Passes s₀ s 0⌝⦄
  := by
  induction fuel generalizing name with
  | zero => mvcgen [dottedRest]
  | succ n ih => mvcgen [dottedRest, eat_takes, fieldName_passes, ih] with grind

/-- A constructor's class is read up to the `(` that opens its arguments. -/
theorem constructor_opens :
  ⦃fun s => ⌜s.OnText ∧ Passes s₀ s 0⌝⦄
  constructor
  ⦃⇓? _ s => ⌜s.OnText ∧ Passes s₀ s 1⌝⦄
  := by
  mvcgen [constructor, expectIdentifier_takes, dottedRest_passes, budget, fail_spec,
    expect_takes, binder] with grind

theorem path_passes (start : Bound) :
  ⦃fun s => ⌜s.OnText ∧ Passes s₀ s 0⌝⦄ path start ⦃⇓? _ s => ⌜s.OnText ∧ Passes s₀ s 0⌝⦄
  := by
  mvcgen [path, budget, eat_takes, fieldName_passes, current, bind_navigate_stays,
    check_passes, fail_spec] invariants
  | inv1 => ⇓? _ s => ⌜s.OnText ∧ Passes s₀ s 0⌝
  with grind

theorem isTest_passes (e : Expr) :
  ⦃fun s => ⌜s.OnText ∧ Passes s₀ s 0⌝⦄ isTest e ⦃⇓? _ s => ⌜s.OnText ∧ Passes s₀ s 0⌝⦄
  := by
  mvcgen [isTest, eatKeyword_takes, next_takes, values_stays, orFail, fail_spec, unexpected]
  with grind

theorem compare_stays (op : BinOp) (left right : Expr) :
  ⦃fun s => ⌜Stays s₀ s⌝⦄ compare op left right ⦃⇓? _ s => ⌜Stays s₀ s⌝⦄
  := by
  mvcgen [compare, binder, current, fail_spec, scalar_stays] with grind

theorem resultItem_stays (e : Expr) (hasFrom : Bool) :
  ⦃fun s => ⌜Stays s₀ s⌝⦄ resultItem e hasFrom ⦃⇓? _ s => ⌜Stays s₀ s⌝⦄
  := by
  mvcgen [resultItem, fail_spec] with grind

theorem checkArity_stays (function : String) (count least : Nat) (most : Option Nat) :
  ⦃fun s => ⌜Stays s₀ s⌝⦄ checkArity function count least most ⦃⇓? _ s => ⌜Stays s₀ s⌝⦄
  := by
  unfold checkArity
  dsimp only
  split_ifs
  · generalize Reason.wrongArgumentCount function _ = r
    mvcgen [fail_spec] with grind
  · mvcgen

theorem mapM_scalar_stays (args : List Expr) :
  ⦃fun s => ⌜Stays s₀ s⌝⦄ args.mapM scalar ⦃⇓? _ s => ⌜Stays s₀ s⌝⦄
  := by
  induction args generalizing s₀ with
  | nil =>
    simp only [List.mapM_nil]
    mvcgen
  | cons a as ih =>
    simp only [List.mapM_cons]
    mvcgen [scalar_stays, ih] with grind

theorem buildFunction_stays (name : String) (args : List Expr) (distinct : Bool) :
  ⦃fun s => ⌜Stays s₀ s⌝⦄ buildFunction name args distinct ⦃⇓? _ s => ⌜Stays s₀ s⌝⦄
  := by
  mvcgen [buildFunction, checkArity_stays, orFail, fail_spec, mapM_scalar_stays] with grind

theorem withFetches_stays (q : QueryId) (body : SelectBody) (fetches : List FetchJoin) :
  ⦃fun s => ⌜Stays s₀ s⌝⦄ withFetches q body fetches ⦃⇓? _ s => ⌜Stays s₀ s⌝⦄
  := by
  mvcgen [withFetches, fail_spec, binder]

/-! ### Steps of reading that keep a reader fitting -/

/-- A step that passes over no parameter keeps a reader fitting. The step is taken as the first of
two, so that its triple is taken at the reader it starts from. -/
theorem fits_of_passes {α : Type} {m : Reading α} {δ : Int} {Q : α → Reader → Prop}
    (h : ∀ s₀ : Reader,
      ⦃fun s => ⌜s.OnText ∧ Passes s₀ s 0⌝⦄ m ⦃⇓? r s => ⌜s.OnText ∧ Passes s₀ s δ ∧ Q r s⌝⦄) :
  ⦃fun s => ⌜s.Fits ∧ Ahead s₀ s 0⌝⦄ m ⦃⇓? r s => ⌜s.Fits ∧ Ahead s₀ s δ ∧ Q r s⌝⦄
  := by
  rw [← bind_pure m]
  mvcgen [h] with grind [Reader.Fits.of_passes]

/-- A step that changes nothing the reader reads by keeps a reader fitting. -/
theorem fits_of_stays {α : Type} {m : Reading α}
    (h : ∀ s₀ : Reader, ⦃fun s => ⌜Stays s₀ s⌝⦄ m ⦃⇓? _ s => ⌜Stays s₀ s⌝⦄) :
  ⦃fun s => ⌜s.Fits ∧ Ahead s₀ s 0⌝⦄ m ⦃⇓? _ s => ⌜s.Fits ∧ Ahead s₀ s 0⌝⦄
  := by
  rw [← bind_pure m]
  mvcgen [h] with grind [Reader.Fits.of_stays]

theorem peek_fits :
  ⦃fun s => ⌜s.Fits ∧ Ahead s₀ s 0⌝⦄ peek ⦃⇓? t s => ⌜s.Fits ∧ Ahead s₀ s 0 ∧ s.pending = some t⌝⦄
  := fits_of_passes s₀ peek_passes

theorem check_fits (t : Token) :
  ⦃fun s => ⌜s.Fits ∧ Ahead s₀ s 0⌝⦄
  check t
  ⦃⇓? b s => ⌜s.Fits ∧ Ahead s₀ s 0 ∧ ∃ t', s.pending = some t' ∧ (b = true ↔ t' = t)⌝⦄
  := fits_of_passes s₀ (check_passes · t)

/-- Looking at the next token, which is the one the reader takes next. -/
theorem checkKeyword_fits (k : Keyword) :
  ⦃fun s => ⌜s₀ = s ∧ s.Fits⌝⦄
  checkKeyword k
  ⦃⇓? b s => ⌜s.Fits ∧ Ahead s₀ s 0 ∧
      ∃ t', s.pending = some t' ∧ s₀.NextToken t' ∧ (b = true ↔ t' = .keyword k)⌝⦄
  := by
  rw [← bind_pure (checkKeyword k)]
  mvcgen [checkKeyword_next] with grind [Reader.Fits.of_passes]

theorem eat_fits (t : Token) :
  ⦃fun s => ⌜s.Fits ∧ Ahead s₀ s 0 ∧ t.parameter? = none ∧ t.nesting = 0⌝⦄
  eat t
  ⦃⇓? _ s => ⌜s.Fits ∧ Ahead s₀ s 0⌝⦄
  := by
  rw [← bind_pure (eat t)]
  mvcgen [eat_takes] with grind [Reader.Fits.of_passes, Reader.Fits.of_takes]

theorem eatKeyword_fits (k : Keyword) :
  ⦃fun s => ⌜s.Fits ∧ Ahead s₀ s 0⌝⦄ eatKeyword k ⦃⇓? _ s => ⌜s.Fits ∧ Ahead s₀ s 0⌝⦄
  := by
  rw [← bind_pure (eatKeyword k)]
  mvcgen [eatKeyword_takes] with grind [Reader.Fits.of_passes, Reader.Fits.of_takes]

theorem expect_fits (t : Token) :
  ⦃fun s => ⌜s.Fits ∧ Ahead s₀ s 0 ∧ t.parameter? = none⌝⦄
  expect t
  ⦃⇓? _ s => ⌜s.Fits ∧ Ahead s₀ s t.nesting⌝⦄
  := by
  rw [← bind_pure (expect t)]
  mvcgen [expect_takes] with grind [Reader.Fits.of_takes]

theorem expectKeyword_fits (k : Keyword) :
  ⦃fun s => ⌜s.Fits ∧ Ahead s₀ s 0⌝⦄ expectKeyword k ⦃⇓? _ s => ⌜s.Fits ∧ Ahead s₀ s 0⌝⦄
  := by
  rw [← bind_pure (expectKeyword k)]
  mvcgen [expectKeyword_takes] with grind [Reader.Fits.of_takes]

theorem expectEnd_fits :
  ⦃fun s => ⌜s.Fits ∧ Ahead s₀ s 0⌝⦄
  expectEnd
  ⦃⇓? _ s => ⌜s.Fits ∧ Ahead s₀ s 0 ∧ s.pending = some .eof⌝⦄
  := fits_of_passes s₀ expectEnd_passes

/-- Taking the token looked ahead at, which is no parameter and no parenthesis. -/
theorem skip_fits :
  ⦃fun s => ⌜s₀ = s ∧ s.Fits ∧ ∃ t, s.pending = some t ∧ t.parameter? = none ∧ t.nesting = 0⌝⦄
  skip
  ⦃⇓? _ s => ⌜s.Fits ∧ Ahead s₀ s 0⌝⦄
  := by
  rw [← bind_pure skip]
  mvcgen [skip_taken] with grind [Reader.Fits.of_takes]

theorem scalar_fits (e : Expr) :
  ⦃fun s => ⌜s.Fits ∧ Ahead s₀ s 0⌝⦄ scalar e ⦃⇓? _ s => ⌜s.Fits ∧ Ahead s₀ s 0⌝⦄
  := fits_of_stays s₀ (scalar_stays · e)

theorem values_fits (e : Expr) :
  ⦃fun s => ⌜s.Fits ∧ Ahead s₀ s 0⌝⦄ values e ⦃⇓? _ s => ⌜s.Fits ∧ Ahead s₀ s 0⌝⦄
  := fits_of_stays s₀ (values_stays · e)

theorem compare_fits (op : BinOp) (left right : Expr) :
  ⦃fun s => ⌜s.Fits ∧ Ahead s₀ s 0⌝⦄ compare op left right ⦃⇓? _ s => ⌜s.Fits ∧ Ahead s₀ s 0⌝⦄
  := fits_of_stays s₀ (compare_stays · op left right)

theorem resultItem_fits (e : Expr) (hasFrom : Bool) :
  ⦃fun s => ⌜s.Fits ∧ Ahead s₀ s 0⌝⦄ resultItem e hasFrom ⦃⇓? _ s => ⌜s.Fits ∧ Ahead s₀ s 0⌝⦄
  := fits_of_stays s₀ (resultItem_stays · e hasFrom)

theorem buildFunction_fits (name : String) (args : List Expr) (distinct : Bool) :
  ⦃fun s => ⌜s.Fits ∧ Ahead s₀ s 0⌝⦄
  buildFunction name args distinct
  ⦃⇓? _ s => ⌜s.Fits ∧ Ahead s₀ s 0⌝⦄
  := fits_of_stays s₀ (buildFunction_stays · name args distinct)

theorem withFetches_fits (q : QueryId) (body : SelectBody) (fetches : List FetchJoin) :
  ⦃fun s => ⌜s.Fits ∧ Ahead s₀ s 0⌝⦄ withFetches q body fetches ⦃⇓? _ s => ⌜s.Fits ∧ Ahead s₀ s 0⌝⦄
  := fits_of_stays s₀ (withFetches_stays · q body fetches)

theorem bind_newQuery_fits (parent : Option QueryId) (body : Body) :
  ⦃fun s => ⌜s.Fits ∧ Ahead s₀ s 0⌝⦄
  Reading.bind (Binding.newQuery parent body)
  ⦃⇓? _ s => ⌜s.Fits ∧ Ahead s₀ s 0⌝⦄
  := fits_of_stays s₀ (bind_newQuery_stays · parent body)

theorem constructor_fits :
  ⦃fun s => ⌜s.Fits ∧ Ahead s₀ s 0⌝⦄ constructor ⦃⇓? _ s => ⌜s.Fits ∧ Ahead s₀ s 1⌝⦄
  := by
  rw [← bind_pure constructor]
  mvcgen [constructor_opens] with grind [Reader.Fits.of_passes]

theorem path_fits (start : Bound) :
  ⦃fun s => ⌜s.Fits ∧ Ahead s₀ s 0⌝⦄ path start ⦃⇓? _ s => ⌜s.Fits ∧ Ahead s₀ s 0⌝⦄
  := by
  rw [← bind_pure (path start)]
  mvcgen [path_passes] with grind [Reader.Fits.of_passes]

theorem isTest_fits (e : Expr) :
  ⦃fun s => ⌜s.Fits ∧ Ahead s₀ s 0⌝⦄ isTest e ⦃⇓? _ s => ⌜s.Fits ∧ Ahead s₀ s 0⌝⦄
  := by
  rw [← bind_pure (isTest e)]
  mvcgen [isTest_passes] with grind [Reader.Fits.of_passes]

/-- Taking a token: a token that is no parameter keeps the reader fitting, and a parameter
is registered once the graph registers it. -/
theorem next_fits :
  ⦃fun s => ⌜s.Fits ∧ Ahead s₀ s 0⌝⦄
  next
  ⦃⇓? t s => ⌜s.OnText ∧ Ahead s₀ s t.nesting ∧ (t.parameter? = none → s.Fits) ∧
      ∀ source, t.parameter? = some source →
        Registered s.text (registerSource s.sources source) (parametersBefore s.text s.point)⌝⦄
  := by
  rw [← bind_pure next]
  mvcgen [next_takes] with
  | vc2 hs => exact ⟨hs.1.1, Passes.rfl⟩
  | vc3 hs t s' hnext =>
    obtain ⟨hfits, hahead⟩ := hs
    obtain ⟨hon, htakes, -⟩ := hnext
    refine ⟨hon, by grind, fun hnone => hfits.of_takes htakes hnone hon, fun source hsource => ?_⟩
    obtain ⟨⟨htext, -, -⟩, hparams, hsrc⟩ := htakes
    rw [hsource, Option.toList_some] at hparams
    rw [htext, hsrc, hparams]
    apply hfits.2.register
    rw [← hparams]
    exact parametersBefore_isPrefix _ _

/-- Registering the parameter just taken keeps the reader fitting. -/
theorem bind_argument_fits (source : ArgSource) :
  ⦃fun s => ⌜s.OnText ∧ Ahead s₀ s 0 ∧
      Registered s.text (registerSource s.sources source) (parametersBefore s.text s.point)⌝⦄
  Reading.bind (Binding.argument source)
  ⦃⇓? _ s => ⌜s.Fits ∧ Ahead s₀ s 0⌝⦄
  := by
  rw [← bind_pure (Reading.bind (Binding.argument source))]
  mvcgen [bind_argument_registers] with grind

/-! ### Clauses around expressions -/

/-- A step of reading that keeps a reader fitting and ends `δ` parentheses deeper than it
starts. -/
abbrev Registers {α : Type} (δ : Int) (m : Reading α) : Prop :=
  ∀ s₀ : Reader, ⦃fun s => ⌜s.Fits ∧ Ahead s₀ s 0⌝⦄ m ⦃⇓? _ s => ⌜s.Fits ∧ Ahead s₀ s δ⌝⦄

/-- The select list ends where the FROM clause read ahead starts, or after it: at a FROM. -/
theorem selectList_registers {item : Reading Expr} (hitem : Registers 0 item) (hasFrom : Bool) :
  ⦃fun s => ⌜s₀ = s ∧ s.Fits ∧ s.OpensSelect⌝⦄
  selectList item hasFrom
  ⦃⇓? _ s => ⌜s.Fits ∧ Ahead s₀ s 0 ∧ (hasFrom = true → s.pending = some (.keyword .from))⌝⦄
  := by
  unfold Registers at hitem
  mvcgen [selectList, eatKeyword_next, eatKeyword_fits, constructor_fits, budget, hitem,
    resultItem_fits, eat_fits, expect_fits, checkKeyword_fits, unexpected, fail_spec,
    peek_fits] invariants
  | inv1 => ⇓? r s => ⌜s.Fits ∧ Ahead s₀ s r.2.constructor.isSome.toNat⌝
  | inv2 => ⇓? r s => ⌜s.Fits ∧ Ahead s₀ s r.2.constructor.isSome.toNat⌝
  with grind [Reader.Fits.of_passes, Reader.Fits.of_takes, Reader.OpensSelect.next]

theorem groupByList_registers {item : Reading Expr} (hitem : Registers 0 item) :
  Registers 0 (groupByList item)
  := by
  unfold Registers at hitem ⊢
  intro s₀
  mvcgen [groupByList, expectKeyword_fits, budget, hitem, values_fits, eat_fits] invariants
  | inv1 => ⇓? _ s => ⌜s.Fits ∧ Ahead s₀ s 0⌝
  with grind

theorem orderByList_registers {item : Reading Expr} (hitem : Registers 0 item) :
  Registers 0 (orderByList item)
  := by
  unfold Registers at hitem ⊢
  intro s₀
  mvcgen [orderByList, expectKeyword_fits, budget, hitem, eatKeyword_fits, values_fits,
    eat_fits] invariants
  | inv1 => ⇓? _ s => ⌜s.Fits ∧ Ahead s₀ s 0⌝
  with grind

theorem clauses_registers {item cond : Reading Expr} (hitem : Registers 0 item)
    (hcond : Registers 0 cond) (body : SelectBody) :
  Registers 0 (clauses item cond body)
  := by
  have hgroup := groupByList_registers hitem
  have horder := orderByList_registers hitem
  unfold Registers at hcond hgroup horder ⊢
  intro s₀
  mvcgen [clauses, eatKeyword_fits, hcond, hgroup, checkKeyword_fits, fail_spec, skip_fits,
    horder] with grind

/-- Going back to the end of the FROM clause from the FROM that ends the select list keeps a
reader fitting: the clause starts at the first FROM at the block's depth, at or before that
one, and holds no parameter. -/
theorem fits_afterFrom {s : Reader} {m : Mark} {pf : Nat} (hfits : s.Fits)
    (hahead : Ahead s₀ s 0) (hfrom : s.pending = some (.keyword .from))
    (hclause : FromClauseAt s₀.text s₀.point pf m.point) (hm : m.OnText)
    (hquery : m.scanner.query = s₀.text) :
  Reader.Fits { s with scanner := m.scanner, pending := m.pending } ∧
    Ahead s₀ { s with scanner := m.scanner, pending := m.pending } 0
  := by
  obtain ⟨hon, hreg⟩ := hfits
  obtain ⟨htext, hle, hdepth⟩ := hahead
  have hpoint : s.point = s.scanner.start := by simp [Reader.point_eq, hfrom]
  have hmem : ⟨.keyword .from, s.scanner.start, s.scanner.lexeme⟩ ∈ (scanText s₀.text).1 := by
    rw [← htext]
    rw [Reader.onText_iff, hfrom] at hon
    exact hon.mem_scanText
  have hfirst : pf ≤ s.point := by
    by_contra hlt
    have := hclause.first _ hmem (by rw [← hpoint]; exact hle) (show s.scanner.start < pf by omega)
    rw [← hpoint] at this
    exact this rfl (by simpa using hdepth)
  refine ⟨⟨hm, ?_⟩, hquery, hclause.start_le.trans hclause.le_after, ?_⟩
  · show Registered m.scanner.query s.sources (parametersBefore m.scanner.query m.point)
    rw [hquery, hclause.parameters_after]
    rw [htext] at hreg
    exact hreg.mono (parametersBefore_prefix_of_le hfirst)
  · show depthAt s₀.text m.point = depthAt s₀.text s₀.point + 0
    rw [hclause.depth_after, add_zero]

/-- `fits_afterFrom` for a block read from `s`: its FROM clause read ahead from `s`, its select
list read from `s₁` up to `s₂`, and the reader gone back to the end of the clause. -/
theorem fits_reset {s s₁ s₂ s₃ : Reader} {r : Bool × List FetchJoin × Mark}
    (hclause : Stays s s₁ ∧ r.2.2.OnText ∧ r.2.2.scanner.query = s.text ∧
      (r.1 = true → ∃ pf, FromClauseAt s.text s.point pf r.2.2.point))
    (hfound : r.1 = true)
    (hlist : s₂.Fits ∧ Ahead s₁ s₂ 0 ∧ (r.1 = true → s₂.pending = some (.keyword .from)))
    (hs₃ : s₃ = { s₂ with scanner := r.2.2.scanner, pending := r.2.2.pending }) :
  s₃.Fits ∧ Ahead s s₃ 0
  := by
  obtain ⟨hstays, hm, hquery, hpf⟩ := hclause
  obtain ⟨pf, hpf⟩ := hpf hfound
  obtain ⟨hfits, hahead, hfrom⟩ := hlist
  have hahead' : Ahead s s₂ 0 := by grind
  subst hs₃
  exact fits_afterFrom s hfits hahead' (hfrom hfound) hpf hm hquery

/-! ### The functions of the grammar -/

/-- What the functions of the grammar keep with `n` levels of nesting left: a fitting reader
stays fitting, and each function ends at the depth of parentheses it starts at, but `trimCall`,
which takes the `)` of its call. A SELECT block starts at its SELECT or FROM, and a statement
reads up to the end of the text. -/
structure InTextOrder (n : Nat) : Prop where
  select : ∀ inner (s₀ : Reader),
    ⦃fun s => ⌜s.Fits ∧ Ahead s₀ s 0 ∧ s.OpensSelect⌝⦄
    select n inner
    ⦃⇓? _ s => ⌜s.Fits ∧ Ahead s₀ s 0 ∧ (inner = false → s.pending = some .eof)⌝⦄
  selectBody : ∀ q inner (s₀ : Reader),
    ⦃fun s => ⌜s.Fits ∧ Ahead s₀ s 0 ∧ s.OpensSelect⌝⦄
    selectBody n q inner
    ⦃⇓? _ s => ⌜s.Fits ∧ Ahead s₀ s 0 ∧ (inner = false → s.pending = some .eof)⌝⦄
  condition : Registers 0 (condition n)
  expr : Registers 0 (expr n)
  disjunction : Registers 0 (disjunction n)
  conjunction : Registers 0 (conjunction n)
  negation : Registers 0 (negation n)
  comparison : Registers 0 (comparison n)
  inPredicate : ∀ left negated, Registers 0 (inPredicate n left negated)
  memberOf : ∀ item negated, Registers 0 (memberOf n item negated)
  concatenation : Registers 0 (concatenation n)
  sum : Registers 0 (sum n)
  product : Registers 0 (product n)
  term : Registers 0 (term n)
  simpleTerm : Registers 0 (simpleTerm n)
  identifierTerm : ∀ name, Registers 0 (identifierTerm n name)
  subqueryTerm : ∀ keyword, Registers 0 (subqueryTerm n keyword)
  function : ∀ name, Registers 0 (function n name)
  trimCall : ∀ s₀ : Reader,
    ⦃fun s => ⌜s.Fits ∧ Ahead s₀ s 1⌝⦄ trimCall n ⦃⇓? _ s => ⌜s.Fits ∧ Ahead s₀ s 0⌝⦄

section Steps

variable {n : Nat} (ih : InTextOrder n)
include ih

theorem condition_inTextOrder : Registers 0 (condition (n + 1)) := by
  have hexpr := ih.expr
  unfold Registers at hexpr ⊢
  intro s₀
  mvcgen [condition, hexpr, scalar_fits] with grind

theorem expr_inTextOrder : Registers 0 (expr (n + 1)) := by
  have hselect := ih.select
  have hdisj := ih.disjunction
  unfold Registers at hdisj ⊢
  intro s₀
  mvcgen [expr, checkKeyword_fits, hselect, hdisj] with grind

theorem disjunction_inTextOrder : Registers 0 (disjunction (n + 1)) := by
  have hconj := ih.conjunction
  unfold Registers at hconj ⊢
  intro s₀
  mvcgen [disjunction, hconj, checkKeyword_fits, scalar_fits, budget, eatKeyword_fits]
    invariants
  | inv1 => ⇓? _ s => ⌜s.Fits ∧ Ahead s₀ s 0⌝
  with grind

theorem conjunction_inTextOrder : Registers 0 (conjunction (n + 1)) := by
  have hneg := ih.negation
  unfold Registers at hneg ⊢
  intro s₀
  mvcgen [conjunction, hneg, checkKeyword_fits, scalar_fits, budget, eatKeyword_fits]
    invariants
  | inv1 => ⇓? _ s => ⌜s.Fits ∧ Ahead s₀ s 0⌝
  with grind

theorem negation_inTextOrder : Registers 0 (negation (n + 1)) := by
  have hneg := ih.negation
  have hcmp := ih.comparison
  unfold Registers at hneg hcmp ⊢
  intro s₀
  mvcgen [negation, eatKeyword_fits, hneg, hcmp, scalar_fits] with grind

theorem comparison_inTextOrder : Registers 0 (comparison (n + 1)) := by
  have hconcat := ih.concatenation
  have hin := ih.inPredicate
  have hmember := ih.memberOf
  unfold Registers at hconcat hin hmember ⊢
  intro s₀
  mvcgen [comparison, hconcat, eatKeyword_fits, peek_fits, skip_fits, expectKeyword_fits,
    scalar_fits, next_fits, fail_spec, isTest_fits, hin, hmember, compare_fits]
  with grind

theorem inPredicate_inTextOrder : ∀ left negated, Registers 0 (inPredicate (n + 1) left negated) := by
  have hselect := ih.select
  have hexpr := ih.expr
  unfold Registers at hexpr ⊢
  intro left negated s₀
  mvcgen [inPredicate, expect_fits, checkKeyword_fits, hselect, check_fits, fail_spec, budget,
    hexpr, scalar_fits, eat_fits] invariants
  | inv1 => ⇓? _ s => ⌜s.Fits ∧ Ahead s₀ s 1⌝
  with grind

theorem memberOf_inTextOrder : ∀ item negated, Registers 0 (memberOf (n + 1) item negated) := by
  have hconcat := ih.concatenation
  unfold Registers at hconcat ⊢
  intro item negated s₀
  mvcgen [memberOf, hconcat, fail_spec, orFail, binder] with grind

theorem concatenation_inTextOrder : Registers 0 (concatenation (n + 1)) := by
  have hsum := ih.sum
  unfold Registers at hsum ⊢
  intro s₀
  mvcgen [concatenation, hsum, budget, eat_fits, scalar_fits] invariants
  | inv1 => ⇓? _ s => ⌜s.Fits ∧ Ahead s₀ s 0⌝
  with grind

theorem sum_inTextOrder : Registers 0 (sum (n + 1)) := by
  have hproduct := ih.product
  unfold Registers at hproduct ⊢
  intro s₀
  mvcgen [sum, hproduct, budget, peek_fits, skip_fits, scalar_fits] invariants
  | inv1 => ⇓? _ s => ⌜s.Fits ∧ Ahead s₀ s 0⌝
  with grind

theorem product_inTextOrder : Registers 0 (product (n + 1)) := by
  have hterm := ih.term
  unfold Registers at hterm ⊢
  intro s₀
  mvcgen [product, hterm, budget, peek_fits, skip_fits, scalar_fits] invariants
  | inv1 => ⇓? _ s => ⌜s.Fits ∧ Ahead s₀ s 0⌝
  with grind

theorem term_inTextOrder : Registers 0 (term (n + 1)) := by
  have hterm := ih.term
  have hsimple := ih.simpleTerm
  unfold Registers at hterm hsimple ⊢
  intro s₀
  mvcgen [term, peek_fits, hsimple, skip_fits, hterm, scalar_fits] with grind

theorem simpleTerm_inTextOrder : Registers 0 (simpleTerm (n + 1)) := by
  have hid := ih.identifierTerm
  have hfun := ih.function
  have hexpr := ih.expr
  unfold Registers at hid hfun hexpr ⊢
  intro s₀
  mvcgen [simpleTerm, next_fits, hid, check_fits, hfun, unexpected, fail_spec,
    bind_argument_fits, hexpr, expect_fits]
  with grind

theorem identifierTerm_inTextOrder : ∀ name, Registers 0 (identifierTerm (n + 1) name) := by
  have hsub := ih.subqueryTerm
  have hfun := ih.function
  unfold Registers at hsub hfun ⊢
  intro name s₀
  mvcgen [identifierTerm, check_fits, hsub, hfun, current, binder, fail_spec, path_fits] with
  | vc6 _ _ _ _ _ _ _ _ _ _ _ hrun _ =>
    have hargs := Triple.run_eq_ok (Binding.navigate_keeps _ _ name .unknown _) rfl hrun
    grind
  all_goals grind

theorem subqueryTerm_inTextOrder : ∀ keyword, Registers 0 (subqueryTerm (n + 1) keyword) := by
  have hselect := ih.select
  unfold Registers
  intro keyword s₀
  mvcgen [subqueryTerm, expect_fits, checkKeyword_fits, fail_spec, hselect] with grind

theorem function_inTextOrder : ∀ name, Registers 0 (function (n + 1) name) := by
  have hexpr := ih.expr
  have htrim := ih.trimCall
  unfold Registers at hexpr ⊢
  intro name s₀
  mvcgen [function, expect_fits, hexpr, orFail, fail_spec, htrim, eatKeyword_fits, eat_fits,
    check_fits, budget, buildFunction_fits] invariants
  | inv1 => ⇓? _ s => ⌜s.Fits ∧ Ahead s₀ s 1⌝
  with grind

theorem trimCall_inTextOrder : ∀ s₀ : Reader,
    ⦃fun s => ⌜s.Fits ∧ Ahead s₀ s 1⌝⦄ trimCall (n + 1) ⦃⇓? _ s => ⌜s.Fits ∧ Ahead s₀ s 0⌝⦄ := by
  have hexpr := ih.expr
  unfold Registers at hexpr
  intro s₀
  mvcgen [trimCall, peek_fits, skip_fits, eatKeyword_fits, hexpr, scalar_fits, unexpected,
    fail_spec, expect_fits]
  with grind

theorem select_inTextOrder : ∀ inner (s₀ : Reader),
    ⦃fun s => ⌜s.Fits ∧ Ahead s₀ s 0 ∧ s.OpensSelect⌝⦄
    select (n + 1) inner
    ⦃⇓? _ s => ⌜s.Fits ∧ Ahead s₀ s 0 ∧ (inner = false → s.pending = some .eof)⌝⦄ := by
  have hbody := ih.selectBody
  intro inner s₀
  mvcgen [select, bind_newQuery_stays, enterBlock, hbody, modifyBlock_stays]
  with grind [Reader.Fits.of_stays]

/-- The select list is read from the start of the block, and the reader then goes on from the
end of the FROM clause. -/
theorem selectBody_inTextOrder : ∀ q inner (s₀ : Reader),
    ⦃fun s => ⌜s.Fits ∧ Ahead s₀ s 0 ∧ s.OpensSelect⌝⦄
    selectBody (n + 1) q inner
    ⦃⇓? _ s => ⌜s.Fits ∧ Ahead s₀ s 0 ∧ (inner = false → s.pending = some .eof)⌝⦄ := by
  have hlist := fun s₀ => selectList_registers s₀ ih.expr
  have hclauses := clauses_registers ih.expr ih.condition
  unfold Registers at hclauses
  intro q inner s₀
  mvcgen [selectBody, fromClause_reads, hlist, reset_goes, withFetches_fits, hclauses,
    expectEnd_fits] with
  | vc4 _ _ _ h₁ _ _ hfound _ h₂ _ _ h₃ =>
    have := fits_reset h₁ hfound h₂ h₃
    grind
  | vc9 _ _ _ h₁ _ _ hfound _ h₂ _ _ h₃ _ _ _ _ _ _ _ _ _ _ _ =>
    have := fits_reset h₁ hfound h₂ h₃
    grind
  | vc10 _ _ _ h₁ _ _ hfound _ h₂ _ _ h₃ _ _ _ _ _ _ _ _ =>
    have := fits_reset h₁ hfound h₂ h₃
    grind
  all_goals grind [Reader.Fits.of_stays]

/-- One more level of nesting keeps what the level below keeps. -/
theorem InTextOrder.succ : InTextOrder (n + 1) :=
  ⟨select_inTextOrder ih, selectBody_inTextOrder ih, condition_inTextOrder ih,
    expr_inTextOrder ih, disjunction_inTextOrder ih, conjunction_inTextOrder ih,
    negation_inTextOrder ih, comparison_inTextOrder ih, inPredicate_inTextOrder ih,
    memberOf_inTextOrder ih, concatenation_inTextOrder ih, sum_inTextOrder ih,
    product_inTextOrder ih, term_inTextOrder ih, simpleTerm_inTextOrder ih,
    identifierTerm_inTextOrder ih, subqueryTerm_inTextOrder ih, function_inTextOrder ih,
    trimCall_inTextOrder ih⟩

end Steps

/-- With no nesting left, every function of the grammar fails at once. -/
theorem InTextOrder.zero : InTextOrder 0 where
  select _ _ := tooDeep_spec _ _
  selectBody _ _ _ := tooDeep_spec _ _
  condition _ := tooDeep_spec _ _
  expr _ := tooDeep_spec _ _
  disjunction _ := tooDeep_spec _ _
  conjunction _ := tooDeep_spec _ _
  negation _ := tooDeep_spec _ _
  comparison _ := tooDeep_spec _ _
  inPredicate _ _ _ := tooDeep_spec _ _
  memberOf _ _ _ := tooDeep_spec _ _
  concatenation _ := tooDeep_spec _ _
  sum _ := tooDeep_spec _ _
  product _ := tooDeep_spec _ _
  term _ := tooDeep_spec _ _
  simpleTerm _ := tooDeep_spec _ _
  identifierTerm _ _ := tooDeep_spec _ _
  subqueryTerm _ _ := tooDeep_spec _ _
  function _ _ := tooDeep_spec _ _
  trimCall _ := tooDeep_spec _ _

/-- The functions of the grammar register parameters in the order of the text, whatever
nesting is left. -/
theorem inTextOrder : ∀ n, InTextOrder n
  | 0 => InTextOrder.zero
  | n + 1 => (inTextOrder n).succ

/-! ### Statements -/

theorem bulkTarget_fits (q : QueryId) :
  ⦃fun s => ⌜s.Fits ∧ Ahead s₀ s 0⌝⦄ bulkTarget q ⦃⇓? _ s => ⌜s.Fits ∧ Ahead s₀ s 0⌝⦄
  := by
  rw [← bind_pure (bulkTarget q)]
  mvcgen [bulkTarget_passes] with grind [Reader.Fits.of_passes]

theorem fieldName_fits :
  ⦃fun s => ⌜s.Fits ∧ Ahead s₀ s 0⌝⦄
  fieldName
  ⦃⇓? _ s => ⌜s.Fits ∧ Ahead s₀ s 0 ∧ s.pending = none⌝⦄
  := fits_of_passes s₀ fieldName_passes

/-- An UPDATE reads up to the end of the text. -/
theorem update_inTextOrder (fuel : Nat) :
  ⦃fun s => ⌜s.Fits ∧ Ahead s₀ s 0⌝⦄
  update fuel
  ⦃⇓? _ s => ⌜s.Fits ∧ Ahead s₀ s 0 ∧ s.pending = some .eof⌝⦄
  := by
  have hexpr := (inTextOrder fuel).expr
  have hcond := (inTextOrder fuel).condition
  unfold Registers at hexpr hcond
  mvcgen [update, expectKeyword_fits, bind_newQuery_fits, enterBlock, bulkTarget_fits, binder,
    budget, fieldName_fits, eat_fits, fail_spec, expect_fits, hexpr, scalar_fits,
    eatKeyword_fits, hcond, expectEnd_fits, modifyBlock_stays] invariants
  | inv1 => ⇓? _ s => ⌜s.Fits ∧ Ahead s₀ s 0⌝
  with grind [Reader.Fits.of_stays]

/-- A DELETE reads up to the end of the text. -/
theorem delete_inTextOrder (fuel : Nat) :
  ⦃fun s => ⌜s.Fits ∧ Ahead s₀ s 0⌝⦄
  delete fuel
  ⦃⇓? _ s => ⌜s.Fits ∧ Ahead s₀ s 0 ∧ s.pending = some .eof⌝⦄
  := by
  have hcond := (inTextOrder fuel).condition
  unfold Registers at hcond
  mvcgen [delete, expectKeyword_fits, bind_newQuery_fits, enterBlock, eatKeyword_fits,
    bulkTarget_fits, hcond, expectEnd_fits, modifyBlock_stays]
  with grind [Reader.Fits.of_stays]

/-- A statement read from its first keyword reads up to the end of the text. -/
theorem statement_inTextOrder (fuel : Nat) :
  ⦃fun s => ⌜s.Fits ∧ Ahead s₀ s 0 ∧ ∀ t, s.NextToken t →
      t = .keyword .select ∨ t = .keyword .from ∨ t = .keyword .update ∨ t = .keyword .delete⌝⦄
  statement fuel
  ⦃⇓? _ s => ⌜s.Fits ∧ Ahead s₀ s 0 ∧ s.pending = some .eof⌝⦄
  := by
  have hselect : ∀ s₀ : Reader,
      ⦃fun s => ⌜s.Fits ∧ Ahead s₀ s 0 ∧ s.OpensSelect⌝⦄
      select fuel false
      ⦃⇓? _ s => ⌜s.Fits ∧ Ahead s₀ s 0 ∧ s.pending = some .eof⌝⦄ := by
    intro s₀
    have h := (inTextOrder fuel).select false s₀
    rw [← bind_pure (select fuel false)]
    mvcgen [h] with grind
  mvcgen [statement, checkKeyword_fits, update_inTextOrder, delete_inTextOrder, hselect]
  with grind


end Grammar

/-- The text starts with the keyword of a statement: SELECT, FROM for a SELECT without select
list, UPDATE or DELETE. -/
def OpensStatement (text : String) : Prop :=
  ∀ l ∈ (scanText text).1.head?, l.token = .keyword .select ∨ l.token = .keyword .from ∨
    l.token = .keyword .update ∨ l.token = .keyword .delete

instance (text : String) : Decidable (OpensStatement text) :=
  inferInstanceAs (Decidable (∀ l ∈ _, _))

namespace ParsedQuery

/-- The reader a text is read with has registered nothing, and fits. -/
theorem fits_start (schema : Schema) (aliasPrefix text : String) :
  Reader.Fits
    { scanner := Scanner.ofString text
      binder := { Binder.ofSchema schema aliasPrefix with
                  reserved := (identifiers text).map (·.map Char.toLower) } }
  := by
  refine ⟨⟨Relation.ReflTransGen.refl, fun _ h => nomatch h⟩, [], List.nil_prefix, ?_, rfl⟩
  simp [Reader.point, Scanner.point, Scanner.ofString]

/-- The reader a text is read with takes its first token next. -/
theorem nextToken_start {schema : Schema} {aliasPrefix text : String} {t : Token}
    (h : Reader.NextToken
      { scanner := Scanner.ofString text
        binder := { Binder.ofSchema schema aliasPrefix with
                    reserved := (identifiers text).map (·.map Char.toLower) } } t) :
  ∃ l ∈ (scanText text).1.head?, l.token = t
  := by
  obtain h | ⟨-, sc, hnext⟩ := h
  · cases h
  · refine ⟨⟨t, sc.start, sc.lexeme⟩, ?_, rfl⟩
    rw [scanText, Scanner.lexemes_succ hnext]
    rfl

/-- A statement read from a text that starts with the keyword of a statement has registered
the distinct parameters of the text, in the order of their first occurrence. -/
theorem sources_read {schema : Schema} {aliasPrefix text : String} {p : ParsedQuery}
    (h : read schema aliasPrefix text = .ok p) (hopens : OpensStatement text) :
  p.graph.arguments.toList.map (·.source) = (textParameters text).eraseDups
  := by
  unfold read at h
  simp only [Bind.bind, Except.bind] at h
  split at h
  · cases h
  · rename_i r hrun
    cases h
    have hnext : ∀ t, Reader.NextToken
        { scanner := Scanner.ofString text
          binder := { Binder.ofSchema schema aliasPrefix with
                      reserved := (identifiers text).map (·.map Char.toLower) } } t →
        t = .keyword .select ∨ t = .keyword .from ∨ t = .keyword .update ∨
          t = .keyword .delete := by
      intro t ht
      obtain ⟨l, hl, rfl⟩ := nextToken_start ht
      exact hopens l hl
    obtain ⟨⟨hon, hreg⟩, ⟨htext, -, -⟩, heof⟩ :=
      Triple.run_eq_ok (Grammar.statement_inTextOrder _ _)
        ⟨fits_start schema aliasPrefix text, Passes.rfl.1, hnext⟩ hrun
    have hmem := (show r.2.scanner.OnTextWith r.2.text (some .eof) from heof ▸ hon).mem_scanText
    have hpoint : r.2.point = r.2.scanner.start := by simp [Reader.point_eq, heof]
    have hquery : r.2.text = text := htext
    rw [hquery] at hmem hreg
    rw [hpoint, parametersBefore_of_eof hmem] at hreg
    exact hreg.eq_of_text

end ParsedQuery

end EntityQuery
