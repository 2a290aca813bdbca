import Mathlib
import EntityQuery.Proofs.Token.Rescanning
import EntityQuery.Proofs.Query.Parsed

/-!
# Reading scans its text as the one scan does

A SELECT reads its FROM clause first and then goes back to read its select list, and a
sub-query does the same inside the block around it. Going back restores the scanner as it was,
with its offset and its count of numbered parameters. So every scanner the reader holds is one
that scanning reaches from the scanner it started with, in the preorder `≤` of scanners: each
step of reading keeps `s₀ ≤ s.scanner`, since a scan step goes one step further and a mark is
taken of a scanner reached already.

Each step of reading has its triple, and the functions of the grammar have theirs all at once,
by induction on the nesting they may still use (`Grammar.Advancing`), as for soundness. The
scanner `s₀` a triple starts from is its logical variable; `≤` is reflexive and transitive, so
the triples compose whichever earlier scanner `mvcgen` takes for it.

Started on a text `q`, the reader thus holds scanners on `q` only. With
`Scanner.OnText.next_mem_scanText`, `statement_rescans_text` concludes that every token reading
takes from its scanner, the first time or after going back, is the token that `scanText` finds
at the same offset, and that a bare `?` gets the same number each time it is scanned: one more
than the bare `?` and `:name` tokens before it.
-/

open Std.Do

set_option mvcgen.warning false

namespace EntityQuery

open Reading

namespace Reading

variable {s₀ : Scanner}

/-! ### Tokens -/

theorem peek_reaches :
  ⦃fun s => ⌜s₀ ≤ s.scanner⌝⦄ peek ⦃⇓? _ s => ⌜s₀ ≤ s.scanner⌝⦄
  := by
  mvcgen [peek, scan] with grind [→ Scanner.le_of_next]

theorem next_reaches :
  ⦃fun s => ⌜s₀ ≤ s.scanner⌝⦄ next ⦃⇓? _ s => ⌜s₀ ≤ s.scanner⌝⦄
  := by
  mvcgen [next, scan] with grind [→ Scanner.le_of_next]

/- Each triple is a spec for `mvcgen` from the first proof that builds on it, which then starts
once the triple is checked. -/
attribute [local spec] peek_reaches next_reaches

theorem skip_reaches :
  ⦃fun s => ⌜s₀ ≤ s.scanner⌝⦄ skip ⦃⇓? _ s => ⌜s₀ ≤ s.scanner⌝⦄
  := by
  mvcgen [skip, next_reaches] with grind

theorem check_reaches (t : Token) :
  ⦃fun s => ⌜s₀ ≤ s.scanner⌝⦄ check t ⦃⇓? _ s => ⌜s₀ ≤ s.scanner⌝⦄
  := by
  mvcgen [check, peek_reaches] with grind

theorem checkKeyword_reaches (k : Keyword) :
  ⦃fun s => ⌜s₀ ≤ s.scanner⌝⦄ checkKeyword k ⦃⇓? _ s => ⌜s₀ ≤ s.scanner⌝⦄
  := by
  mvcgen [checkKeyword, peek_reaches] with grind

attribute [local spec] skip_reaches check_reaches checkKeyword_reaches

theorem eat_reaches (t : Token) :
  ⦃fun s => ⌜s₀ ≤ s.scanner⌝⦄ eat t ⦃⇓? _ s => ⌜s₀ ≤ s.scanner⌝⦄
  := by
  mvcgen [eat, check_reaches, skip_reaches] with grind

theorem eatKeyword_reaches (k : Keyword) :
  ⦃fun s => ⌜s₀ ≤ s.scanner⌝⦄ eatKeyword k ⦃⇓? _ s => ⌜s₀ ≤ s.scanner⌝⦄
  := by
  mvcgen [eatKeyword, checkKeyword_reaches, skip_reaches] with grind

theorem expect_reaches (t : Token) :
  ⦃fun s => ⌜s₀ ≤ s.scanner⌝⦄ expect t ⦃⇓? _ s => ⌜s₀ ≤ s.scanner⌝⦄
  := by
  mvcgen [expect, next_reaches, unexpected, fail_spec] with grind

theorem expectKeyword_reaches (k : Keyword) :
  ⦃fun s => ⌜s₀ ≤ s.scanner⌝⦄ expectKeyword k ⦃⇓? _ s => ⌜s₀ ≤ s.scanner⌝⦄
  := by
  mvcgen [expectKeyword, next_reaches, unexpected, fail_spec]
  with grind

theorem expectIdentifier_reaches :
  ⦃fun s => ⌜s₀ ≤ s.scanner⌝⦄ expectIdentifier ⦃⇓? _ s => ⌜s₀ ≤ s.scanner⌝⦄
  := by
  mvcgen [expectIdentifier, next_reaches, unexpected, fail_spec]
  with grind

theorem word_reaches (expected : String) :
  ⦃fun s => ⌜s₀ ≤ s.scanner⌝⦄ word expected ⦃⇓? _ s => ⌜s₀ ≤ s.scanner⌝⦄
  := by
  mvcgen [word, next_reaches, unexpected, fail_spec] with grind

attribute [local spec] eat_reaches eatKeyword_reaches expect_reaches expectKeyword_reaches
  expectIdentifier_reaches word_reaches

theorem fieldName_reaches :
  ⦃fun s => ⌜s₀ ≤ s.scanner⌝⦄ fieldName ⦃⇓? _ s => ⌜s₀ ≤ s.scanner⌝⦄
  := by
  mvcgen [fieldName, word_reaches]

theorem expectEnd_reaches :
  ⦃fun s => ⌜s₀ ≤ s.scanner⌝⦄ expectEnd ⦃⇓? _ s => ⌜s₀ ≤ s.scanner⌝⦄
  := by
  mvcgen [expectEnd, peek_reaches, unexpected, fail_spec] with grind

/-! ### Marks, and the rest of the reader -/

/-- A mark holds the scanner of the reader it is taken of. -/
theorem mark_reaches :
  ⦃fun s => ⌜s₀ ≤ s.scanner⌝⦄ mark ⦃⇓? m s => ⌜s₀ ≤ s.scanner ∧ s₀ ≤ m.scanner⌝⦄
  := by
  mvcgen [mark]

/-- Going back to a mark gives the reader the mark's scanner. -/
theorem reset_reaches (m : Mark) :
  ⦃fun _ => ⌜s₀ ≤ m.scanner⌝⦄ reset m ⦃⇓? _ s => ⌜s₀ ≤ s.scanner⌝⦄
  := by
  mvcgen [reset]

theorem budget_reaches :
  ⦃fun s => ⌜s₀ ≤ s.scanner⌝⦄ budget ⦃⇓? _ s => ⌜s₀ ≤ s.scanner⌝⦄
  := by
  mvcgen [budget]

theorem current_reaches :
  ⦃fun s => ⌜s₀ ≤ s.scanner⌝⦄ current ⦃⇓? _ s => ⌜s₀ ≤ s.scanner⌝⦄
  := by
  mvcgen [current]

theorem binder_reaches :
  ⦃fun s => ⌜s₀ ≤ s.scanner⌝⦄ binder ⦃⇓? b s => ⌜s₀ ≤ s.scanner ∧ b = s.binder⌝⦄
  := by
  mvcgen [binder]

/-- A step of binding changes the binder only. -/
theorem bind_reaches {α : Type} (m : Binding α) :
  ⦃fun s => ⌜s₀ ≤ s.scanner⌝⦄ Reading.bind m ⦃⇓? _ s => ⌜s₀ ≤ s.scanner⌝⦄
  := by
  mvcgen [Reading.bind, fail, errorAt]

attribute [local spec] fieldName_reaches expectEnd_reaches mark_reaches reset_reaches budget_reaches
  current_reaches binder_reaches bind_reaches

theorem scalar_reaches (e : Expr) :
  ⦃fun s => ⌜s₀ ≤ s.scanner⌝⦄ scalar e ⦃⇓? _ s => ⌜s₀ ≤ s.scanner⌝⦄
  := by
  mvcgen [scalar, binder_reaches, orFail, fail_spec] with grind

theorem values_reaches (e : Expr) :
  ⦃fun s => ⌜s₀ ≤ s.scanner⌝⦄ values e ⦃⇓? _ s => ⌜s₀ ≤ s.scanner⌝⦄
  := by
  mvcgen [values, binder_reaches, orFail, fail_spec] with grind

theorem modifyBlock_reaches (b : QueryId) (h : Block → Block) :
  ⦃fun s => ⌜s₀ ≤ s.scanner⌝⦄ modifyBlock b h ⦃⇓? _ s => ⌜s₀ ≤ s.scanner⌝⦄
  := by
  mvcgen [modifyBlock]

end Reading

namespace Grammar

variable {s₀ : Scanner}

/-- A step of reading that goes on from where scanning has reached: any scanner that reaches
the reader's scanner before the step reaches it after. -/
abbrev Advances {α : Type} (m : Reading α) : Prop :=
  ∀ s₀ : Scanner, ⦃fun s => ⌜s₀ ≤ s.scanner⌝⦄ m ⦃⇓? _ s => ⌜s₀ ≤ s.scanner⌝⦄

/-! ### Clauses around expressions -/

theorem skipToFrom_reaches (fuel depth : Nat) :
  ⦃fun s => ⌜s₀ ≤ s.scanner⌝⦄ skipToFrom fuel depth ⦃⇓? _ s => ⌜s₀ ≤ s.scanner⌝⦄
  := by
  induction fuel generalizing depth with
  | zero => mvcgen [skipToFrom]
  | succ n ih =>
    mvcgen [skipToFrom, peek_reaches, skip_reaches, ih] with grind

theorem dottedRest_reaches (fuel : Nat) (name : String) :
  ⦃fun s => ⌜s₀ ≤ s.scanner⌝⦄ dottedRest fuel name ⦃⇓? _ s => ⌜s₀ ≤ s.scanner⌝⦄
  := by
  induction fuel generalizing name with
  | zero => mvcgen [dottedRest]
  | succ n ih =>
    mvcgen [dottedRest, eat_reaches, fieldName_reaches, ih] with grind

attribute [local spec] Reading.scalar_reaches Reading.values_reaches Reading.modifyBlock_reaches
  skipToFrom_reaches dottedRest_reaches

theorem constructor_reaches :
  ⦃fun s => ⌜s₀ ≤ s.scanner⌝⦄ constructor ⦃⇓? _ s => ⌜s₀ ≤ s.scanner⌝⦄
  := by
  mvcgen [constructor, expectIdentifier_reaches, dottedRest_reaches, budget_reaches, fail_spec,
    expect_reaches, binder_reaches] with grind

theorem entityName_go_reaches (fuel : Nat) (name tail : String) :
  ⦃fun s => ⌜s₀ ≤ s.scanner⌝⦄ entityName.go fuel name tail ⦃⇓? _ s => ⌜s₀ ≤ s.scanner⌝⦄
  := by
  induction fuel generalizing name tail with
  | zero =>
    mvcgen [entityName.go, fail_spec]
    grind
  | succ n ih =>
    mvcgen [entityName.go, binder_reaches, eat_reaches, fail_spec, fieldName_reaches, ih]
    with grind

attribute [local spec] constructor_reaches entityName_go_reaches

theorem entityName_reaches :
  ⦃fun s => ⌜s₀ ≤ s.scanner⌝⦄ entityName ⦃⇓? _ s => ⌜s₀ ≤ s.scanner⌝⦄
  := by
  mvcgen [entityName, word_reaches, budget_reaches, entityName_go_reaches]
  with grind

theorem aliasName_reaches :
  ⦃fun s => ⌜s₀ ≤ s.scanner⌝⦄ aliasName? ⦃⇓? _ s => ⌜s₀ ≤ s.scanner⌝⦄
  := by
  mvcgen [aliasName?, eatKeyword_reaches, expectIdentifier_reaches, peek_reaches]
  with grind

attribute [local spec] entityName_reaches aliasName_reaches

theorem bulkTarget_reaches (b : QueryId) :
  ⦃fun s => ⌜s₀ ≤ s.scanner⌝⦄ bulkTarget b ⦃⇓? _ s => ⌜s₀ ≤ s.scanner⌝⦄
  := by
  mvcgen [bulkTarget, entityName_reaches, aliasName_reaches, bind_reaches]
  with grind

theorem segments_reaches (fuel : Nat) (acc : List String) :
  ⦃fun s => ⌜s₀ ≤ s.scanner⌝⦄ segments fuel acc ⦃⇓? _ s => ⌜s₀ ≤ s.scanner⌝⦄
  := by
  induction fuel generalizing acc with
  | zero => mvcgen [segments]
  | succ n ih =>
    mvcgen [segments, eat_reaches, fieldName_reaches, ih] with grind

attribute [local spec] bulkTarget_reaches segments_reaches

theorem fromSource_reaches (b : QueryId) (isIn : Bool) :
  ⦃fun s => ⌜s₀ ≤ s.scanner⌝⦄ fromSource b isIn ⦃⇓? _ s => ⌜s₀ ≤ s.scanner⌝⦄
  := by
  mvcgen [fromSource, peek_reaches, binder_reaches, entityName_reaches, expectIdentifier_reaches,
    fail_spec, segments_reaches, budget_reaches] with grind

theorem declarePath_reaches (b : QueryId) (root : FromId) (segs : List String)
    (aliasName : Option String) :
  ⦃fun s => ⌜s₀ ≤ s.scanner⌝⦄ declarePath b root segs aliasName
    ⦃⇓? _ s => ⌜s₀ ≤ s.scanner⌝⦄
  := by
  mvcgen [declarePath, fail_spec, bind_reaches, binder_reaches] invariants
  | inv1 => ⇓? _ s => ⌜s₀ ≤ s.scanner⌝
  with grind

attribute [local spec] fromSource_reaches declarePath_reaches

theorem fromItem_reaches (b : QueryId) :
  ⦃fun s => ⌜s₀ ≤ s.scanner⌝⦄ fromItem b ⦃⇓? _ s => ⌜s₀ ≤ s.scanner⌝⦄
  := by
  mvcgen [fromItem, eatKeyword_reaches, expect_reaches, fromSource_reaches, aliasName_reaches,
    declareSource, fail_spec, bind_reaches, declarePath_reaches]
  with grind

attribute [local spec] fromItem_reaches

theorem fromList_reaches (b : QueryId) :
  ⦃fun s => ⌜s₀ ≤ s.scanner⌝⦄ fromList b ⦃⇓? _ s => ⌜s₀ ≤ s.scanner⌝⦄
  := by
  mvcgen [fromList, clearJoin, budget_reaches, fromItem_reaches, eat_reaches, eatKeyword_reaches,
    expectKeyword_reaches] invariants
  | inv1 => ⇓? _ s => ⌜s₀ ≤ s.scanner⌝
  with grind

theorem path_reaches (start : Bound) :
  ⦃fun s => ⌜s₀ ≤ s.scanner⌝⦄ path start ⦃⇓? _ s => ⌜s₀ ≤ s.scanner⌝⦄
  := by
  mvcgen [path, budget_reaches, eat_reaches, fieldName_reaches, current_reaches, bind_reaches,
    check_reaches, fail_spec] invariants
  | inv1 => ⇓? _ s => ⌜s₀ ≤ s.scanner⌝
  with grind

theorem isTest_reaches (e : Expr) :
  ⦃fun s => ⌜s₀ ≤ s.scanner⌝⦄ isTest e ⦃⇓? _ s => ⌜s₀ ≤ s.scanner⌝⦄
  := by
  mvcgen [isTest, eatKeyword_reaches, next_reaches, values_reaches, orFail, fail_spec, unexpected]
  with grind

theorem compare_reaches (op : BinOp) (left right : Expr) :
  ⦃fun s => ⌜s₀ ≤ s.scanner⌝⦄ compare op left right ⦃⇓? _ s => ⌜s₀ ≤ s.scanner⌝⦄
  := by
  mvcgen [compare, binder_reaches, current_reaches, fail_spec, scalar_reaches]
  with grind

theorem resultItem_reaches (e : Expr) (hasFrom : Bool) :
  ⦃fun s => ⌜s₀ ≤ s.scanner⌝⦄ resultItem e hasFrom ⦃⇓? _ s => ⌜s₀ ≤ s.scanner⌝⦄
  := by
  mvcgen [resultItem, fail_spec] with grind

theorem checkArity_reaches (function : String) (count least : Nat) (most : Option Nat) :
  ⦃fun s => ⌜s₀ ≤ s.scanner⌝⦄ checkArity function count least most
    ⦃⇓? _ s => ⌜s₀ ≤ s.scanner⌝⦄
  := by
  unfold checkArity
  dsimp only
  split_ifs
  · generalize Reason.wrongArgumentCount function _ = r
    mvcgen [fail_spec] with grind
  · mvcgen

theorem mapM_scalar_reaches (args : List Expr) :
  ⦃fun s => ⌜s₀ ≤ s.scanner⌝⦄ args.mapM scalar ⦃⇓? _ s => ⌜s₀ ≤ s.scanner⌝⦄
  := by
  induction args with
  | nil =>
    simp only [List.mapM_nil]
    mvcgen
  | cons a as ih =>
    simp only [List.mapM_cons]
    mvcgen [scalar_reaches, ih] with grind

attribute [local spec] fromList_reaches path_reaches isTest_reaches compare_reaches
  resultItem_reaches checkArity_reaches mapM_scalar_reaches

theorem buildFunction_reaches (name : String) (args : List Expr) (distinct : Bool) :
  ⦃fun s => ⌜s₀ ≤ s.scanner⌝⦄ buildFunction name args distinct
    ⦃⇓? _ s => ⌜s₀ ≤ s.scanner⌝⦄
  := by
  mvcgen [buildFunction, checkArity_reaches, orFail, fail_spec, mapM_scalar_reaches]
  with grind

/-- The FROM clause read ahead leaves the reader at the start of its block, and the point after
the clause holds a scanner reached from the start. -/
theorem fromClause_reaches (b : QueryId) :
  ⦃fun s => ⌜s₀ ≤ s.scanner⌝⦄ fromClause b
    ⦃⇓? r s => ⌜s₀ ≤ s.scanner ∧ s₀ ≤ r.2.2.scanner⌝⦄
  := by
  mvcgen [fromClause, mark_reaches, budget_reaches, skipToFrom_reaches, skip_reaches,
    fromList_reaches, reset_reaches] with grind

theorem selectList_advances {item : Reading Expr} (hitem : Advances item) (hasFrom : Bool) :
  Advances (selectList item hasFrom)
  := by
  unfold Advances at hitem ⊢
  intro s₀
  mvcgen [selectList, eatKeyword_reaches, constructor_reaches, budget_reaches, hitem,
    resultItem_reaches, eat_reaches, expect_reaches, checkKeyword_reaches, unexpected, fail_spec,
    peek_reaches] invariants
  | inv1 => ⇓? _ s => ⌜s₀ ≤ s.scanner⌝
  | inv2 => ⇓? _ s => ⌜s₀ ≤ s.scanner⌝
  with grind

theorem groupByList_advances {item : Reading Expr} (hitem : Advances item) :
  Advances (groupByList item)
  := by
  unfold Advances at hitem ⊢
  intro s₀
  mvcgen [groupByList, expectKeyword_reaches, budget_reaches, hitem, values_reaches, eat_reaches]
    invariants
  | inv1 => ⇓? _ s => ⌜s₀ ≤ s.scanner⌝
  with grind

theorem orderByList_advances {item : Reading Expr} (hitem : Advances item) :
  Advances (orderByList item)
  := by
  unfold Advances at hitem ⊢
  intro s₀
  mvcgen [orderByList, expectKeyword_reaches, budget_reaches, hitem, eatKeyword_reaches,
    values_reaches, eat_reaches] invariants
  | inv1 => ⇓? _ s => ⌜s₀ ≤ s.scanner⌝
  with grind

theorem withFetches_reaches (b : QueryId) (body : SelectBody) (fetches : List FetchJoin) :
  ⦃fun s => ⌜s₀ ≤ s.scanner⌝⦄ withFetches b body fetches ⦃⇓? _ s => ⌜s₀ ≤ s.scanner⌝⦄
  := by
  mvcgen [withFetches, fail_spec, binder]

theorem clauses_advances {item cond : Reading Expr} (hitem : Advances item)
    (hcond : Advances cond) (body : SelectBody) :
  Advances (clauses item cond body)
  := by
  have hgroup := groupByList_advances hitem
  have horder := orderByList_advances hitem
  unfold Advances at hcond hgroup horder ⊢
  intro s₀
  mvcgen [clauses, eatKeyword_reaches, hcond, hgroup, checkKeyword_reaches, fail_spec,
    skip_reaches, horder] with grind

/-! ### The functions of the grammar -/

/-- The functions of the grammar go on from where scanning has reached, with `n` levels of
nesting left. -/
structure Advancing (n : Nat) : Prop where
  select : ∀ inner, Advances (select n inner)
  selectBody : ∀ q inner, Advances (selectBody n q inner)
  condition : Advances (condition n)
  expr : Advances (expr n)
  disjunction : Advances (disjunction n)
  conjunction : Advances (conjunction n)
  negation : Advances (negation n)
  comparison : Advances (comparison n)
  inPredicate : ∀ left negated, Advances (inPredicate n left negated)
  memberOf : ∀ item negated, Advances (memberOf n item negated)
  concatenation : Advances (concatenation n)
  sum : Advances (sum n)
  product : Advances (product n)
  term : Advances (term n)
  simpleTerm : Advances (simpleTerm n)
  identifierTerm : ∀ name, Advances (identifierTerm n name)
  subqueryTerm : ∀ keyword, Advances (subqueryTerm n keyword)
  function : ∀ name, Advances (function n name)
  trimCall : Advances (trimCall n)

section Steps

variable {n : Nat} (ih : Advancing n)
include ih

theorem condition_advances : Advances (condition (n + 1)) := by
  have hexpr := ih.expr
  unfold Advances at hexpr ⊢
  intro s₀
  mvcgen [condition, hexpr, scalar_reaches] with grind

theorem expr_advances : Advances (expr (n + 1)) := by
  have hselect := ih.select
  have hdisj := ih.disjunction
  unfold Advances at hselect hdisj ⊢
  intro s₀
  mvcgen [expr, checkKeyword_reaches, hselect, hdisj] with grind

theorem disjunction_advances : Advances (disjunction (n + 1)) := by
  have hconj := ih.conjunction
  unfold Advances at hconj ⊢
  intro s₀
  mvcgen [disjunction, hconj, checkKeyword_reaches, scalar_reaches, budget_reaches,
    eatKeyword_reaches] invariants
  | inv1 => ⇓? _ s => ⌜s₀ ≤ s.scanner⌝
  with grind

theorem concatenation_advances : Advances (concatenation (n + 1)) := by
  have hsum := ih.sum
  unfold Advances at hsum ⊢
  intro s₀
  mvcgen [concatenation, hsum, budget_reaches, eat_reaches, scalar_reaches] invariants
  | inv1 => ⇓? _ s => ⌜s₀ ≤ s.scanner⌝
  with grind

theorem conjunction_advances : Advances (conjunction (n + 1)) := by
  have hneg := ih.negation
  unfold Advances at hneg ⊢
  intro s₀
  mvcgen [conjunction, hneg, checkKeyword_reaches, scalar_reaches, budget_reaches,
    eatKeyword_reaches] invariants
  | inv1 => ⇓? _ s => ⌜s₀ ≤ s.scanner⌝
  with grind

theorem negation_advances : Advances (negation (n + 1)) := by
  have hneg := ih.negation
  have hcmp := ih.comparison
  unfold Advances at hneg hcmp ⊢
  intro s₀
  mvcgen [negation, eatKeyword_reaches, hneg, hcmp, scalar_reaches] with grind

theorem sum_advances : Advances (sum (n + 1)) := by
  have hproduct := ih.product
  unfold Advances at hproduct ⊢
  intro s₀
  mvcgen [sum, hproduct, budget_reaches, peek_reaches, skip_reaches, scalar_reaches] invariants
  | inv1 => ⇓? _ s => ⌜s₀ ≤ s.scanner⌝
  with grind

theorem product_advances : Advances (product (n + 1)) := by
  have hterm := ih.term
  unfold Advances at hterm ⊢
  intro s₀
  mvcgen [product, hterm, budget_reaches, peek_reaches, skip_reaches, scalar_reaches] invariants
  | inv1 => ⇓? _ s => ⌜s₀ ≤ s.scanner⌝
  with grind

theorem term_advances : Advances (term (n + 1)) := by
  have hterm := ih.term
  have hsimple := ih.simpleTerm
  unfold Advances at hterm hsimple ⊢
  intro s₀
  mvcgen [term, peek_reaches, hsimple, skip_reaches, hterm, scalar_reaches] with grind

theorem comparison_advances : Advances (comparison (n + 1)) := by
  have hconcat := ih.concatenation
  have hin := ih.inPredicate
  have hmember := ih.memberOf
  unfold Advances at hconcat hin hmember ⊢
  intro s₀
  mvcgen [comparison, hconcat, eatKeyword_reaches, peek_reaches, skip_reaches,
    expectKeyword_reaches, scalar_reaches, next_reaches, fail_spec, isTest_reaches, hin, hmember,
    compare_reaches]
  with grind

theorem inPredicate_advances : ∀ left negated, Advances (inPredicate (n + 1) left negated) := by
  have hselect := ih.select
  have hexpr := ih.expr
  unfold Advances at hselect hexpr ⊢
  intro left negated s₀
  mvcgen [inPredicate, expect_reaches, checkKeyword_reaches, hselect, check_reaches, fail_spec,
    budget_reaches, hexpr, scalar_reaches, eat_reaches] invariants
  | inv1 => ⇓? _ s => ⌜s₀ ≤ s.scanner⌝
  with grind

theorem memberOf_advances : ∀ item negated, Advances (memberOf (n + 1) item negated) := by
  have hconcat := ih.concatenation
  unfold Advances at hconcat ⊢
  intro item negated s₀
  mvcgen [memberOf, hconcat, fail_spec, orFail, binder] with grind

theorem simpleTerm_advances : Advances (simpleTerm (n + 1)) := by
  have hid := ih.identifierTerm
  have hfun := ih.function
  have hexpr := ih.expr
  unfold Advances at hid hfun hexpr ⊢
  intro s₀
  mvcgen [simpleTerm, next_reaches, hid, check_reaches, hfun, unexpected, fail_spec,
    bind_reaches, hexpr, expect_reaches]
  with grind

theorem identifierTerm_advances : ∀ name, Advances (identifierTerm (n + 1) name) := by
  have hsub := ih.subqueryTerm
  have hfun := ih.function
  unfold Advances at hsub hfun ⊢
  intro name s₀
  mvcgen [identifierTerm, check_reaches, hsub, hfun, current, binder, fail_spec, path_reaches]
  with grind

theorem subqueryTerm_advances : ∀ keyword, Advances (subqueryTerm (n + 1) keyword) := by
  have hselect := ih.select
  unfold Advances at hselect ⊢
  intro keyword s₀
  mvcgen [subqueryTerm, expect_reaches, checkKeyword_reaches, fail_spec, hselect] with grind

attribute [local spec] buildFunction_reaches fromClause_reaches withFetches_reaches

theorem function_advances : ∀ name, Advances (function (n + 1) name) := by
  have hexpr := ih.expr
  have htrim := ih.trimCall
  unfold Advances at hexpr htrim ⊢
  intro name s₀
  mvcgen [function, expect_reaches, hexpr, orFail, fail_spec, htrim, eatKeyword_reaches,
    eat_reaches, check_reaches, budget_reaches, buildFunction_reaches] invariants
  | inv1 => ⇓? _ s => ⌜s₀ ≤ s.scanner⌝
  with grind

theorem trimCall_advances : Advances (trimCall (n + 1)) := by
  have hexpr := ih.expr
  unfold Advances at hexpr ⊢
  intro s₀
  mvcgen [trimCall, peek_reaches, skip_reaches, eatKeyword_reaches, hexpr, scalar_reaches,
    unexpected, fail_spec, expect_reaches]
  with grind

theorem select_advances : ∀ inner, Advances (select (n + 1) inner) := by
  have hbody := ih.selectBody
  unfold Advances at hbody ⊢
  intro inner s₀
  mvcgen [select, bind_reaches, enterBlock, hbody, modifyBlock_reaches] with grind

/-- The select list is read after the FROM clause, from the start of the block, and the reader
then goes back to the point after the clause: both points hold scanners reached already. -/
theorem selectBody_advances : ∀ q inner, Advances (selectBody (n + 1) q inner) := by
  have hlist := selectList_advances ih.expr
  have hclauses := clauses_advances ih.expr ih.condition
  unfold Advances at hlist hclauses ⊢
  intro q inner s₀
  mvcgen [selectBody, fromClause_reaches, hlist, reset_reaches, withFetches_reaches, hclauses,
    expectEnd_reaches]
  with grind

/-- One more level of nesting goes on as the level below does. -/
theorem Advancing.succ : Advancing (n + 1) :=
  ⟨select_advances ih, selectBody_advances ih, condition_advances ih, expr_advances ih,
    disjunction_advances ih, conjunction_advances ih, negation_advances ih,
    comparison_advances ih, inPredicate_advances ih, memberOf_advances ih,
    concatenation_advances ih, sum_advances ih, product_advances ih, term_advances ih,
    simpleTerm_advances ih, identifierTerm_advances ih, subqueryTerm_advances ih,
    function_advances ih, trimCall_advances ih⟩

end Steps

/-- With no nesting left, every function of the grammar fails at once. -/
theorem Advancing.zero : Advancing 0 where
  select _ _ := tooDeep_spec _ _
  selectBody _ _ _ := tooDeep_spec _ _
  condition _ := tooDeep_spec _ _
  expr _ := tooDeep_spec _ _
  disjunction _ := tooDeep_spec _ _
  conjunction _ := tooDeep_spec _ _
  negation _ := tooDeep_spec _ _
  comparison _ := tooDeep_spec _ _
  inPredicate _ _ _ := tooDeep_spec _ _
  memberOf _ _ _ := tooDeep_spec _ _
  concatenation _ := tooDeep_spec _ _
  sum _ := tooDeep_spec _ _
  product _ := tooDeep_spec _ _
  term _ := tooDeep_spec _ _
  simpleTerm _ := tooDeep_spec _ _
  identifierTerm _ _ := tooDeep_spec _ _
  subqueryTerm _ _ := tooDeep_spec _ _
  function _ _ := tooDeep_spec _ _
  trimCall _ := tooDeep_spec _ _

/-- The functions of the grammar go on from where scanning has reached, whatever nesting is
left. -/
theorem advancing : ∀ n, Advancing n
  | 0 => Advancing.zero
  | n + 1 => (advancing n).succ

/-! ### Statements -/

theorem update_advances (fuel : Nat) : Advances (update fuel) := by
  have hexpr := (advancing fuel).expr
  have hcond := (advancing fuel).condition
  unfold Advances at hexpr hcond ⊢
  intro s₀
  mvcgen [update, expectKeyword_reaches, bind_reaches, enterBlock, bulkTarget_reaches, binder,
    budget_reaches, fieldName_reaches, eat_reaches, fail_spec, expect_reaches, hexpr,
    scalar_reaches, eatKeyword_reaches, hcond, expectEnd_reaches, modifyBlock_reaches] invariants
  | inv1 => ⇓? _ s => ⌜s₀ ≤ s.scanner⌝
  with grind

theorem delete_advances (fuel : Nat) : Advances (delete fuel) := by
  have hcond := (advancing fuel).condition
  unfold Advances at hcond ⊢
  intro s₀
  mvcgen [delete, expectKeyword_reaches, bind_reaches, enterBlock, eatKeyword_reaches,
    bulkTarget_reaches, hcond, expectEnd_reaches, modifyBlock_reaches]
  with grind

theorem statement_advances (fuel : Nat) : Advances (statement fuel) := by
  have hupdate := update_advances fuel
  have hdelete := delete_advances fuel
  have hselect := (advancing fuel).select false
  unfold Advances at hupdate hdelete hselect ⊢
  intro s₀
  mvcgen [statement, checkKeyword_reaches, hupdate, hdelete, hselect] with grind

end Grammar

/-! ### Reading a text -/

/-- Reading a statement from a scanner on `q` scans `q` as `scanText q` does, the tokens it scans
again after going back included: the reader's scanner stays on `q`, and a token scanned from a
scanner on `q` is the one lexeme of `scanText q` at its offset, with its text. A bare `?` there
is numbered one more than the bare `?` and `:name` tokens before it in `q`, on the 32-bit
counter of the scanner, so modulo `2 ^ 32`. -/
theorem statement_rescans_text (fuel : Nat) (q : String) :
    ⦃fun s => ⌜s.scanner.OnText q⌝⦄ Grammar.statement fuel ⦃⇓? _ s => ⌜s.scanner.OnText q⌝⦄ ∧
    ∀ (s s' : Scanner) (t : Token), s.OnText q → s.next = .ok (t, s') →
      (scanText q).1.filter (·.start = s'.start) = [⟨t, s'.start, s'.lexeme⟩] ∧
      (s'.lexeme = "?" →
        t = .positional
          ((1 + ((scanText q).1.filter (·.start < s'.start)).countP Lexeme.takesNumber) %
            UInt32.size))
  := by
  refine ⟨Grammar.statement_advances fuel (Scanner.ofString q), ?_⟩
  intro s s' t hs hnext
  obtain ⟨i, hi⟩ := List.mem_iff_getElem?.mp (hs.next_mem_scanText hnext)
  have hsorted := scanText_sorted q
  refine ⟨Lexeme.filter_start_eq hsorted hi, fun hbare => ?_⟩
  have hbefore := Lexeme.take_eq_filter_start_lt hsorted hi
  simp only at hbefore
  rw [← hbefore]
  exact scanText_bare hi hbare

/-- In `:n ?` the bare `?`, scanned after the named parameter, is the lexeme of the one scan at
offset 3 and is numbered 2. -/
theorem named_then_bare_rescanned :
    ({ query := ":n ?", source := ":n ?".toList, rest := [' ', '?'], pos := 2, start := 0,
        params := 1 } : Scanner).OnText ":n ?" ∧
      (scanText ":n ?").1.filter (·.start = 3) = [⟨.positional 2, 3, "?"⟩] ∧
      Token.positional 2 = .positional
        ((1 + ((scanText ":n ?").1.filter (·.start < 3)).countP Lexeme.takesNumber) % UInt32.size)
  := by
  let s₁ : Scanner :=
    { query := ":n ?", source := ":n ?".toList, rest := [' ', '?'], pos := 2, start := 0, params := 1 }
  let s₂ : Scanner :=
    { query := ":n ?", source := ":n ?".toList, rest := [], pos := 4, start := 3, params := 2 }
  have hon : s₁.OnText ":n ?" := Relation.ReflTransGen.single ⟨.named "n", by rfl⟩
  have hnext : s₁.next = .ok (.positional 2, s₂) := by rfl
  have hlex : s₂.lexeme = "?" := by rfl
  have h := (statement_rescans_text 0 ":n ?").2 s₁ s₂ _ hon hnext
  exact ⟨hon, h.1, h.2 hlex⟩

end EntityQuery
