import Mathlib
import EntityQuery.Proofs.Query.Clauses

/-!
# Reading a statement gives a sound graph

The grammar's functions are mutually recursive on the depth of nesting they may still use, so
what they keep is proved for all of them at once, by one induction on that depth: `Keeps n`
bundles a triple for each function with `n` levels left, `Keeps.zero` holds because every
function fails at once, and `Keeps.succ` proves each function at `n + 1` from the triples of
the functions it calls at `n`. Each triple says that a sound reader stays sound, that no
parameter is taken away, and that an expression built is writable with the parameters the
reader has then.

`ParsedQuery.sound_read` concludes that every statement read from any text holds a sound
graph: each expression it holds copies plain SQL text only and refers to parameters it has.
-/

open Std.Do

set_option mvcgen.warning false

namespace EntityQuery

open SqlText Reading

/-- Every expression of a SELECT body is writable. -/
def SelectBody.Writable (n : Nat) (body : SelectBody) : Prop :=
  ∀ e ∈ (Body.select body).expressions, e.Writable n

/-- The parts of a SELECT body are writable one by one. -/
@[grind =]
theorem SelectBody.writable_iff (n : Nat) (body : SelectBody) :
  body.Writable n ↔ (∀ e ∈ body.results, e.Writable n) ∧
    (∀ e ∈ body.whereClause, e.Writable n) ∧ (∀ e ∈ body.groupBy, e.Writable n) ∧
    (∀ e ∈ body.having, e.Writable n) ∧ ∀ t ∈ body.orderBy, t.expr.Writable n
  := by
  simp only [SelectBody.Writable, Body.expressions, List.mem_append, Option.mem_toList,
    List.mem_map, or_imp, forall_and, forall_exists_index, and_imp, forall_apply_eq_imp_iff₂,
    and_assoc]
  rfl

theorem SelectBody.Writable.mono {n m : Nat} (hnm : n ≤ m) {body : SelectBody}
    (h : body.Writable n) :
  body.Writable m
  := fun e he => Expr.Writable.mono hnm e (h e he)

namespace Grammar

/-- A step of reading that keeps a sound reader sound and keeps its parameters. -/
abbrev Frames {α : Type} (m : Reading α) : Prop :=
  ∀ s₀ : Reader,
    ⦃fun s => ⌜s.Sound ∧ s₀.params ≤ s.params⌝⦄
    m
    ⦃⇓? _ s => ⌜s.Sound ∧ s₀.params ≤ s.params⌝⦄

/-- A step of reading that keeps a sound reader sound and its parameters, and builds a writable
expression. -/
abbrev Builds (m : Reading Expr) : Prop :=
  ∀ s₀ : Reader,
    ⦃fun s => ⌜s.Sound ∧ s₀.params ≤ s.params⌝⦄
    m
    ⦃⇓? r s => ⌜s.Sound ∧ s₀.params ≤ s.params ∧ r.Writable s.params⌝⦄

/-- `Builds` for a step that extends the expression `e`, which must be writable to begin with. -/
abbrev BuildsFrom (e : Expr) (m : Reading Expr) : Prop :=
  ∀ s₀ : Reader,
    ⦃fun s => ⌜s.Sound ∧ s₀.params ≤ s.params ∧ e.Writable s.params⌝⦄
    m
    ⦃⇓? r s => ⌜s.Sound ∧ s₀.params ≤ s.params ∧ r.Writable s.params⌝⦄

/-- What the functions of the grammar keep with `n` levels of nesting left. -/
structure Keeps (n : Nat) : Prop where
  select : ∀ inner, Frames (select n inner)
  selectBody : ∀ q inner (s₀ : Reader),
    ⦃fun s => ⌜s.Sound ∧ s₀.params ≤ s.params⌝⦄
    selectBody n q inner
    ⦃⇓? body s => ⌜s.Sound ∧ s₀.params ≤ s.params ∧ body.Writable s.params⌝⦄
  condition : Builds (condition n)
  expr : Builds (expr n)
  disjunction : Builds (disjunction n)
  conjunction : Builds (conjunction n)
  negation : Builds (negation n)
  comparison : Builds (comparison n)
  inPredicate : ∀ left negated, BuildsFrom left (inPredicate n left negated)
  memberOf : ∀ item negated, BuildsFrom item (memberOf n item negated)
  concatenation : Builds (concatenation n)
  sum : Builds (sum n)
  product : Builds (product n)
  term : Builds (term n)
  simpleTerm : Builds (simpleTerm n)
  identifierTerm : ∀ name, PlainText name → Builds (identifierTerm n name)
  subqueryTerm : ∀ keyword, Builds (subqueryTerm n keyword)
  function : ∀ name, PlainText name → Builds (function n name)
  trimCall : Builds (trimCall n)

/-- A step of a path run on its own from a sound graph leaves a sound graph with at least the
parameters it had. -/
theorem navigate_run {q : QueryId} {parent : FromId} {field : String} {semantics : JoinSemantics}
    {b b' : Binder} {r : Bound} (hb : b.graph.Sound)
    (h : (Binding.navigate q parent field semantics).run b = .ok (r, b')) :
  b'.graph.Sound ∧ b.graph.arguments.size ≤ b'.graph.arguments.size
  := Triple.run_eq_ok (Binding.navigate_spec q parent field semantics b) ⟨hb, Nat.le_refl _⟩ h

/-- The values `MEMBER OF` compares are identity columns, or the parameter given. -/
theorem writable_memberValues {b : Binder} {c : CollectionRef} {item : Expr} {vs : List Expr}
    {n : Nat} (h : memberValues b c item = .ok vs) (hitem : item.Writable n) :
  ∀ v ∈ vs, v.Writable n
  := by
  unfold memberValues at h
  split at h
  · dsimp only at h
    split at h <;> cases h
    intro v hv
    obtain ⟨k, -, rfl⟩ := List.mem_map.mp hv
    trivial
  · split at h <;> cases h
    intro v hv
    rw [List.mem_singleton.mp hv]
    exact hitem
  · cases h

theorem writable_objectOf {e r : Expr} (n : Nat) (h : objectOf e = .ok r) : r.Writable n := by
  unfold objectOf at h
  split at h <;> cases h
  trivial

/-- A block whose body is replaced by one with writable expressions keeps writable
expressions, its filters being the graph's. -/
theorem Graph.Sound.withBody {g : Graph} (hg : g.Sound) (q : QueryId) {body : Body}
    (hbody : ∀ e ∈ body.expressions, e.Writable g.arguments.size) :
  ∀ e ∈ ({ g.block q with body } : Block).expressions, e.Writable g.arguments.size
  := by
  intro e he
  rcases List.mem_append.mp he with hf | hb
  · exact hg.blocks q e (List.mem_append_left _ hf)
  · exact hbody e hb

theorem fromClause_spec (q : QueryId) (s₀ : Reader) :
  ⦃fun s => ⌜s.Sound ∧ s₀.params ≤ s.params⌝⦄
  fromClause q
  ⦃⇓? r s => ⌜s.Sound ∧ s₀.params ≤ s.params ∧ r.2.2.Sound⌝⦄
  := by
  mvcgen [fromClause, mark_spec, budget_spec, skipToFrom_spec, skip_spec, fromList_spec,
    reset_spec] with grind

theorem selectList_spec {item : Reading Expr} (hitem : Builds item) (hasFrom : Bool)
    (s₀ : Reader) :
  ⦃fun s => ⌜s.Sound ∧ s₀.params ≤ s.params⌝⦄
  selectList item hasFrom
  ⦃⇓? body s => ⌜s.Sound ∧ s₀.params ≤ s.params ∧ body.Writable s.params⌝⦄
  := by
  unfold Builds at hitem
  mvcgen [selectList, eatKeyword_spec, constructor_spec, budget_spec, hitem, resultItem_spec,
    eat_spec, expect_spec, checkKeyword_spec, unexpected, fail_spec, peek_spec] invariants
  | inv1 => ⇓? r s => ⌜s.Sound ∧ s₀.params ≤ s.params ∧ r.2.Writable s.params⌝
  | inv2 => ⇓? r s => ⌜s.Sound ∧ s₀.params ≤ s.params ∧ r.2.Writable s.params⌝
  with grind [Expr.Writable.mono, SelectBody.Writable.mono]

theorem groupByList_spec {item : Reading Expr} (hitem : Builds item) (s₀ : Reader) :
  ⦃fun s => ⌜s.Sound ∧ s₀.params ≤ s.params⌝⦄
  groupByList item
  ⦃⇓? es s => ⌜s.Sound ∧ s₀.params ≤ s.params ∧ ∀ e ∈ es, e.Writable s.params⌝⦄
  := by
  unfold Builds at hitem
  mvcgen [groupByList, expectKeyword_spec, budget_spec, hitem, values_spec, eat_spec] invariants
  | inv1 => ⇓? r s => ⌜s.Sound ∧ s₀.params ≤ s.params ∧ ∀ e ∈ r.2, e.Writable s.params⌝
  with grind [Expr.Writable.mono]

theorem orderByList_spec {item : Reading Expr} (hitem : Builds item) (s₀ : Reader) :
  ⦃fun s => ⌜s.Sound ∧ s₀.params ≤ s.params⌝⦄
  orderByList item
  ⦃⇓? ts s => ⌜s.Sound ∧ s₀.params ≤ s.params ∧ ∀ t ∈ ts, t.expr.Writable s.params⌝⦄
  := by
  unfold Builds at hitem
  mvcgen [orderByList, expectKeyword_spec, budget_spec, hitem, eatKeyword_spec, values_spec,
    eat_spec] invariants
  | inv1 => ⇓? r s => ⌜s.Sound ∧ s₀.params ≤ s.params ∧ ∀ t ∈ r.2, t.expr.Writable s.params⌝
  with grind [Expr.Writable.mono]

theorem withFetches_spec (q : QueryId) (body : SelectBody) (fetches : List FetchJoin)
    (s₀ : Reader) :
  ⦃fun s => ⌜s.Sound ∧ s₀.params ≤ s.params ∧ body.Writable s.params⌝⦄
  withFetches q body fetches
  ⦃⇓? body s => ⌜s.Sound ∧ s₀.params ≤ s.params ∧ body.Writable s.params⌝⦄
  := by
  mvcgen [withFetches, fail_spec, binder] with grind [Expr.Writable]

theorem clauses_spec {item cond : Reading Expr} (hitem : Builds item) (hcond : Builds cond)
    (body : SelectBody) (s₀ : Reader) :
  ⦃fun s => ⌜s.Sound ∧ s₀.params ≤ s.params ∧ body.Writable s.params⌝⦄
  clauses item cond body
  ⦃⇓? body s => ⌜s.Sound ∧ s₀.params ≤ s.params ∧ body.Writable s.params⌝⦄
  := by
  have hgroup := groupByList_spec hitem
  have horder := orderByList_spec hitem
  unfold Builds at hcond
  mvcgen [clauses, eatKeyword_spec, hcond, hgroup, checkKeyword_spec, fail_spec, skip_spec,
    horder]
  with grind [Expr.Writable.mono]

section Steps

variable {n : Nat} (ih : Keeps n)
include ih

theorem condition_step : Builds (condition (n + 1)) := by
  have hexpr := ih.expr
  unfold Builds at hexpr ⊢
  intro s₀
  mvcgen [condition, hexpr, scalar_spec] with grind

theorem expr_step : Builds (expr (n + 1)) := by
  have hselect := ih.select
  have hdisj := ih.disjunction
  unfold Frames at hselect
  unfold Builds at hdisj ⊢
  intro s₀
  mvcgen [expr, checkKeyword_spec, hselect, hdisj] with grind [Expr.Writable]

theorem disjunction_step : Builds (disjunction (n + 1)) := by
  have hconj := ih.conjunction
  unfold Builds at hconj ⊢
  intro s₀
  mvcgen [disjunction, hconj, checkKeyword_spec, scalar_spec, budget_spec, eatKeyword_spec]
    invariants
  | inv1 => ⇓? r s => ⌜s.Sound ∧ s₀.params ≤ s.params ∧ ∀ p ∈ r.2, p.Writable s.params⌝
  with grind [Expr.Writable.mono, Expr.writable_disjunction, Expr.writableAll_iff]

theorem concatenation_step : Builds (concatenation (n + 1)) := by
  have hsum := ih.sum
  unfold Builds at hsum ⊢
  intro s₀
  mvcgen [concatenation, hsum, budget_spec, eat_spec, scalar_spec] invariants
  | inv1 => ⇓? r s => ⌜s.Sound ∧ s₀.params ≤ s.params ∧ r.2.Writable s.params⌝
  with grind [Expr.Writable.mono, Expr.Writable]

theorem conjunction_step : Builds (conjunction (n + 1)) := by
  have hneg := ih.negation
  unfold Builds at hneg ⊢
  intro s₀
  mvcgen [conjunction, hneg, checkKeyword_spec, scalar_spec, budget_spec, eatKeyword_spec]
    invariants
  | inv1 => ⇓? r s => ⌜s.Sound ∧ s₀.params ≤ s.params ∧ ∀ p ∈ r.2, p.Writable s.params⌝
  with grind [Expr.Writable.mono, Expr.writable_conjunction, Expr.writableAll_iff]

theorem negation_step : Builds (negation (n + 1)) := by
  have hneg := ih.negation
  have hcmp := ih.comparison
  unfold Builds at hneg hcmp ⊢
  intro s₀
  mvcgen [negation, eatKeyword_spec, hneg, hcmp, scalar_spec] with grind [Expr.Writable]

theorem sum_step : Builds (sum (n + 1)) := by
  have hproduct := ih.product
  unfold Builds at hproduct ⊢
  intro s₀
  mvcgen [sum, hproduct, budget_spec, peek_spec, skip_spec, scalar_spec] invariants
  | inv1 => ⇓? r s => ⌜s.Sound ∧ s₀.params ≤ s.params ∧ r.2.Writable s.params⌝
  with grind [Expr.Writable.mono, Expr.Writable]

theorem product_step : Builds (product (n + 1)) := by
  have hterm := ih.term
  unfold Builds at hterm ⊢
  intro s₀
  mvcgen [product, hterm, budget_spec, peek_spec, skip_spec, scalar_spec] invariants
  | inv1 => ⇓? r s => ⌜s.Sound ∧ s₀.params ≤ s.params ∧ r.2.Writable s.params⌝
  with grind [Expr.Writable.mono, Expr.Writable]

theorem term_step : Builds (term (n + 1)) := by
  have hterm := ih.term
  have hsimple := ih.simpleTerm
  unfold Builds at hterm hsimple ⊢
  intro s₀
  mvcgen [term, peek_spec, hsimple, skip_spec, hterm, scalar_spec] with grind [Expr.Writable]

theorem comparison_step : Builds (comparison (n + 1)) := by
  have hconcat := ih.concatenation
  have hin := ih.inPredicate
  have hmember := ih.memberOf
  unfold Builds at hconcat ⊢
  unfold BuildsFrom at hin hmember
  intro s₀
  mvcgen [comparison, hconcat, eatKeyword_spec, peek_spec, skip_spec, expectKeyword_spec,
    scalar_spec, next_spec, fail_spec, isTest_spec, hin, hmember, compare_spec]
  with grind [Expr.Writable.mono, Expr.Writable, Token.Copyable]

theorem inPredicate_step : ∀ left negated, BuildsFrom left (inPredicate (n + 1) left negated) := by
  have hselect := ih.select
  have hexpr := ih.expr
  unfold Frames at hselect
  unfold Builds at hexpr
  intro left negated s₀
  mvcgen [inPredicate, expect_spec, checkKeyword_spec, hselect, check_spec, fail_spec,
    budget_spec, hexpr, scalar_spec, eat_spec] invariants
  | inv1 => ⇓? r s => ⌜s.Sound ∧ s₀.params ≤ s.params ∧ left.Writable s.params ∧
      ∀ v ∈ r.2, v.Writable s.params⌝
  with grind [Expr.Writable.mono, Expr.Writable, Expr.writableAll_iff]

theorem memberOf_step : ∀ item negated, BuildsFrom item (memberOf (n + 1) item negated) := by
  have hconcat := ih.concatenation
  unfold Builds at hconcat
  intro item negated s₀
  mvcgen [memberOf, hconcat, fail_spec, orFail, binder]
  with grind [Expr.Writable.mono, Expr.Writable, Expr.writableAll_iff, writable_memberValues]

theorem simpleTerm_step : Builds (simpleTerm (n + 1)) := by
  have hid := ih.identifierTerm
  have hfun := ih.function
  have hexpr := ih.expr
  unfold Builds at hid hfun hexpr ⊢
  intro s₀
  mvcgen [simpleTerm, next_spec, hid, check_spec, hfun, unexpected, fail_spec,
    bind_argument_spec, hexpr, expect_spec]
  with grind [Expr.Writable.mono, Expr.Writable, Token.Copyable, plain_spelling]

theorem identifierTerm_step : ∀ name, PlainText name → Builds (identifierTerm (n + 1) name) := by
  have hsub := ih.subqueryTerm
  have hfun := ih.function
  unfold Builds at hsub hfun ⊢
  intro name hname s₀
  mvcgen [identifierTerm, check_spec, hsub, hfun, current, binder, fail_spec, path_spec] with
  | vc7 hs _ _ _ _ _ _ hrun t =>
    obtain ⟨hg, hk⟩ := navigate_run hs.1.graph hrun
    simp only [t]
    exact ⟨⟨hg, hs.1.scanner, hs.1.pending⟩, by grind⟩
  all_goals grind

theorem subqueryTerm_step : ∀ keyword, Builds (subqueryTerm (n + 1) keyword) := by
  have hselect := ih.select
  unfold Frames at hselect
  unfold Builds
  intro keyword s₀
  mvcgen [subqueryTerm, expect_spec, checkKeyword_spec, fail_spec, hselect]
  with grind [Expr.Writable]

theorem function_step : ∀ name, PlainText name → Builds (function (n + 1) name) := by
  have hexpr := ih.expr
  have htrim := ih.trimCall
  unfold Builds at hexpr htrim ⊢
  intro name hname s₀
  mvcgen [function, expect_spec, hexpr, orFail, fail_spec, htrim, eatKeyword_spec, eat_spec,
    check_spec, budget_spec, buildFunction_spec] invariants
  | inv1 => ⇓? r s => ⌜s.Sound ∧ s₀.params ≤ s.params ∧ ∀ a ∈ r.2, a.Writable s.params⌝
  with grind [Expr.Writable.mono, writable_objectOf, PlainText.toUpper]

theorem trimCall_step : Builds (trimCall (n + 1)) := by
  have hexpr := ih.expr
  unfold Builds at hexpr ⊢
  intro s₀
  mvcgen [trimCall, peek_spec, skip_spec, eatKeyword_spec, hexpr, scalar_spec, unexpected,
    fail_spec, expect_spec]
  with grind [Expr.Writable.mono, Expr.Writable]

theorem select_step : ∀ inner, Frames (select (n + 1) inner) := by
  have hbody := ih.selectBody
  unfold Frames
  intro inner s₀
  mvcgen [select, bind_newQuery_spec, enterBlock, hbody, modifyBlock_spec] with
  | vc5 hb t _ =>
    simp only [t]
    exact ⟨⟨hb.1.graph, hb.1.scanner, hb.1.pending⟩, by grind,
      Graph.Sound.withBody hb.1.graph _ hb.2.2⟩
  all_goals grind [Body.expressions]

theorem selectBody_step : ∀ q inner (s₀ : Reader),
    ⦃fun s => ⌜s.Sound ∧ s₀.params ≤ s.params⌝⦄
    selectBody (n + 1) q inner
    ⦃⇓? body s => ⌜s.Sound ∧ s₀.params ≤ s.params ∧ body.Writable s.params⌝⦄ := by
  have hlist := selectList_spec ih.expr
  have hclauses := clauses_spec ih.expr ih.condition
  intro q inner s₀
  mvcgen [selectBody, fromClause_spec, hlist, reset_spec, withFetches_spec, hclauses,
    expectEnd_spec]
  with grind [Expr.Writable.mono]

/-- One more level of nesting keeps everything the level below keeps. -/
theorem Keeps.succ : Keeps (n + 1) :=
  ⟨select_step ih, selectBody_step ih, condition_step ih, expr_step ih, disjunction_step ih,
    conjunction_step ih, negation_step ih, comparison_step ih, inPredicate_step ih,
    memberOf_step ih, concatenation_step ih, sum_step ih, product_step ih, term_step ih,
    simpleTerm_step ih, identifierTerm_step ih, subqueryTerm_step ih, function_step ih,
    trimCall_step ih⟩

end Steps

/-- Running out of nesting fails, so it meets every partial postcondition. -/
theorem tooDeep_spec {α : Type} (P : Reader → Prop) (Q : α → Reader → Prop) :
  ⦃fun s => ⌜P s⌝⦄ (tooDeep : Reading α) ⦃⇓? r s => ⌜Q r s⌝⦄
  := by
  mvcgen [tooDeep, fail_spec] with grind

/-- With no nesting left, every function of the grammar fails at once. -/
theorem Keeps.zero : Keeps 0 where
  select _ _ := tooDeep_spec _ _
  selectBody _ _ _ := tooDeep_spec _ _
  condition _ := tooDeep_spec _ _
  expr _ := tooDeep_spec _ _
  disjunction _ := tooDeep_spec _ _
  conjunction _ := tooDeep_spec _ _
  negation _ := tooDeep_spec _ _
  comparison _ := tooDeep_spec _ _
  inPredicate _ _ _ := tooDeep_spec _ _
  memberOf _ _ _ := tooDeep_spec _ _
  concatenation _ := tooDeep_spec _ _
  sum _ := tooDeep_spec _ _
  product _ := tooDeep_spec _ _
  term _ := tooDeep_spec _ _
  simpleTerm _ := tooDeep_spec _ _
  identifierTerm _ _ _ := tooDeep_spec _ _
  subqueryTerm _ _ := tooDeep_spec _ _
  function _ _ _ := tooDeep_spec _ _
  trimCall _ := tooDeep_spec _ _

/-- The functions of the grammar keep a sound reader sound, whatever nesting is left. -/
theorem keeps : ∀ n, Keeps n
  | 0 => Keeps.zero
  | n + 1 => (keeps n).succ

/-! ### Statements -/

/-- The filters of a block of a sound graph are writable. -/
theorem filter_writable {g : Graph} (hg : g.Sound) {q : QueryId} {e : Expr}
    (he : e ∈ (g.block q).filters) :
  e.Writable g.arguments.size
  := hg.blocks q e (List.mem_append_left _ he)

theorem update_spec (fuel : Nat) : Frames (update fuel) := by
  have hexpr := (keeps fuel).expr
  have hcond := (keeps fuel).condition
  unfold Builds at hexpr hcond
  intro s₀
  mvcgen [update, expectKeyword_spec, bind_newQuery_spec, enterBlock, bulkTarget_spec, binder,
    budget_spec, fieldName_spec, eat_spec, fail_spec, expect_spec, hexpr, scalar_spec,
    eatKeyword_spec, hcond, expectEnd_spec, modifyBlock_spec] invariants
  | inv1 => ⇓? r s => ⌜s.Sound ∧ s₀.params ≤ s.params ∧ ∀ a ∈ r.2, a.value.Writable s.params⌝
  with grind [Expr.Writable.mono, Body.expressions, Block.expressions, filter_writable]

theorem delete_spec (fuel : Nat) : Frames (delete fuel) := by
  have hcond := (keeps fuel).condition
  unfold Builds at hcond
  intro s₀
  mvcgen [delete, expectKeyword_spec, bind_newQuery_spec, enterBlock, eatKeyword_spec,
    bulkTarget_spec, hcond, expectEnd_spec, modifyBlock_spec]
  with grind [Expr.Writable.mono, Body.expressions, Block.expressions, filter_writable]

theorem statement_spec (fuel : Nat) : Frames (statement fuel) := by
  have hupdate := update_spec fuel
  have hdelete := delete_spec fuel
  have hselect := (keeps fuel).select false
  unfold Frames at hupdate hdelete hselect
  intro s₀
  mvcgen [statement, checkKeyword_spec, hupdate, hdelete, hselect] with grind

end Grammar

namespace ParsedQuery

/-- The graph of a reader that has read nothing is empty, so it is sound. -/
theorem sound_empty : ({} : Graph).Sound where
  blocks q e he := by
    have hblank : ({} : Graph).block q = default := by simp [Graph.block]
    have hnone : (default : Block).expressions = [] := rfl
    rw [hblank, hnone] at he
    cases he
  joins f j x hj := by
    have hblank : ({} : Graph).item f = default := by simp [Graph.item]
    have hnone : (default : FromItem).join = none := rfl
    rw [hblank, hnone] at hj
    cases hj
  unbound _ ha := by simp at ha

/-- A statement read from any text holds a sound graph: every expression it holds is
writable with the parameters the graph has, and no parameter is bound yet. -/
theorem sound_read {schema : Schema} {aliasPrefix text : String} {p : ParsedQuery}
    (h : read schema aliasPrefix text = .ok p) :
  p.graph.Sound
  := by
  unfold read at h
  simp only [Bind.bind, Except.bind] at h
  split at h
  · cases h
  · rename_i r hrun
    cases h
    have hstart : Reader.Sound { scanner := Scanner.ofString text, binder := { Binder.ofSchema schema aliasPrefix with reserved := (identifiers text).map (·.map Char.toLower) } } :=
      ⟨sound_empty, Scanner.sound_ofString text, fun _ h => nomatch h⟩
    exact (Triple.run_eq_ok (Grammar.statement_spec _ _) ⟨hstart, le_refl _⟩ hrun).1.graph

end ParsedQuery

end EntityQuery
