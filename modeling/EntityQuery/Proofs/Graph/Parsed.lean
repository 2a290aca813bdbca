import Mathlib
import EntityQuery.Proofs.Graph.Clauses
import EntityQuery.Proofs.Query.Parsed

/-!
# Reading a statement gives a well-formed graph

As for soundness, what the mutually recursive functions of the grammar keep is proved for all
of them at once, by induction on the depth of nesting they may still use: `KeepsGraph n`
bundles a triple for each function with `n` levels left. Each triple says that a formed reader
stays formed, that the graph only grows, and that the block being read is kept; the functions
that build an expression are read inside a block and build one within the graph.

A block read by `select` is a new block under the block being read, so its parent was made
before it; its body names the items its FROM clause declared and the blocks of the sub-queries
read in it, all made before the body is written into the block (`Graph.WellFormed.setBody`).
`ParsedQuery.wellFormed_read` concludes that every statement read from any text is a
well-formed graph, with its root among its blocks.
-/

open Std.Do

set_option mvcgen.warning false

namespace EntityQuery

open Reading

/-- Everything a SELECT body names is within the extent: its expressions, and the two items of
each of its `JOIN FETCH` declarations. -/
def SelectBody.Within (x : Extent) (body : SelectBody) : Prop :=
  (∀ e ∈ (Body.select body).expressions, e.Within x) ∧
    ∀ f ∈ body.fetches, f.owner.idx < x.items ∧ f.target.idx < x.items

/-- The parts of a SELECT body are within the extent one by one. -/
@[grind =]
theorem SelectBody.within_iff (x : Extent) (body : SelectBody) :
  body.Within x ↔ (∀ e ∈ body.results, e.Within x) ∧
    (∀ e, body.whereClause = some e → e.Within x) ∧ (∀ e ∈ body.groupBy, e.Within x) ∧
    (∀ e, body.having = some e → e.Within x) ∧ (∀ t ∈ body.orderBy, t.expr.Within x) ∧
    ∀ f ∈ body.fetches, f.owner.idx < x.items ∧ f.target.idx < x.items
  := by
  simp only [SelectBody.Within, Body.expressions, List.mem_append, Option.mem_toList,
    List.mem_map, or_imp, forall_and, forall_exists_index, and_imp, forall_apply_eq_imp_iff₂,
    and_assoc]

theorem SelectBody.Within.mono {x y : Extent} (hxy : x ≤ y) {body : SelectBody}
    (h : body.Within x) :
  body.Within y
  := ⟨fun e he => Expr.Within.mono hxy e (h.1 e he), fun f hf =>
    ⟨Nat.lt_of_lt_of_le (h.2 f hf).1 hxy.1, Nat.lt_of_lt_of_le (h.2 f hf).2 hxy.1⟩⟩

/-- A block whose body is replaced by one within the graph keeps a graph well-formed. -/
theorem Graph.WellFormed.setBody {g : Graph} (hg : g.WellFormed) (q : QueryId) {body : Body}
    (hexprs : ∀ e ∈ body.expressions, e.Within g.extent)
    (hfetches : ∀ s, body = .select s → ∀ x ∈ s.fetches,
      x.owner.idx < g.items.size ∧ x.target.idx < g.items.size) :
  (g.modifyBlock q fun b => { b with body }).WellFormed
  := by
  refine hg.modifyBlock q _ rfl rfl (hg.fromList q) (hg.fromNodup q) ?_ hfetches
  intro e he
  rcases List.mem_append.mp he with hf | hb
  · exact hg.exprs q e (List.mem_append_left _ hf)
  · exact hexprs e hb

/-- The graph of a formed reader stays well-formed when a block's body is replaced by one within
it. -/
theorem Reader.Formed.setBody {s : Reader} (hs : s.Formed) (q : QueryId) {body : Body}
    (hexprs : ∀ e ∈ body.expressions, e.Within s.extent)
    (hfetches : ∀ sb, body = .select sb → ∀ x ∈ sb.fetches,
      x.owner.idx < s.binder.graph.items.size ∧ x.target.idx < s.binder.graph.items.size) :
  (s.binder.graph.modifyBlock q fun b => { b with body }).WellFormed
  := hs.binder.graph.setBody q hexprs hfetches

namespace Grammar

/-- A step of reading that keeps a formed reader formed, lets its graph only grow and keeps the
block it reads in. -/
abbrev KeepsFormed {α : Type} (m : Reading α) : Prop :=
  ∀ s₀ : Reader,
    ⦃fun s => ⌜s.Formed ∧ s₀.extent ≤ s.extent ∧ s.query = s₀.query⌝⦄
    m
    ⦃⇓? _ s => ⌜s.Formed ∧ s₀.extent ≤ s.extent ∧ s.query = s₀.query⌝⦄

/-- A step of reading inside a block that keeps the reader formed and builds an expression
within the graph. -/
abbrev BuildsWithin (m : Reading Expr) : Prop :=
  ∀ s₀ : Reader,
    ⦃fun s => ⌜s.Formed ∧ s₀.extent ≤ s.extent ∧ s.query = s₀.query ∧ s.query.isSome⌝⦄
    m
    ⦃⇓? r s => ⌜s.Formed ∧ s₀.extent ≤ s.extent ∧ s.query = s₀.query ∧ r.Within s.extent⌝⦄

/-- `BuildsWithin` for a step that extends the expression `e`, which must be within the graph
to begin with. -/
abbrev ExtendsWithin (e : Expr) (m : Reading Expr) : Prop :=
  ∀ s₀ : Reader,
    ⦃fun s => ⌜s.Formed ∧ s₀.extent ≤ s.extent ∧ s.query = s₀.query ∧ s.query.isSome ∧
        e.Within s.extent⌝⦄
    m
    ⦃⇓? r s => ⌜s.Formed ∧ s₀.extent ≤ s.extent ∧ s.query = s₀.query ∧ r.Within s.extent⌝⦄

/-- What the functions of the grammar keep of the graph with `n` levels of nesting left. -/
structure KeepsGraph (n : Nat) : Prop where
  select : ∀ inner (s₀ : Reader),
    ⦃fun s => ⌜s.Formed ∧ s₀.extent ≤ s.extent ∧ s.query = s₀.query⌝⦄
    select n inner
    ⦃⇓? q s => ⌜s.Formed ∧ s₀.extent ≤ s.extent ∧ s.query = s₀.query ∧
        q.idx < s.binder.graph.blocks.size⌝⦄
  selectBody : ∀ q inner (s₀ : Reader),
    ⦃fun s => ⌜s.Formed ∧ s₀.extent ≤ s.extent ∧ s.query = some q⌝⦄
    selectBody n q inner
    ⦃⇓? body s => ⌜s.Formed ∧ s₀.extent ≤ s.extent ∧ s.query = some q ∧ body.Within s.extent⌝⦄
  condition : BuildsWithin (condition n)
  expr : BuildsWithin (expr n)
  disjunction : BuildsWithin (disjunction n)
  conjunction : BuildsWithin (conjunction n)
  negation : BuildsWithin (negation n)
  comparison : BuildsWithin (comparison n)
  inPredicate : ∀ left negated, ExtendsWithin left (inPredicate n left negated)
  memberOf : ∀ item negated, ExtendsWithin item (memberOf n item negated)
  concatenation : BuildsWithin (concatenation n)
  sum : BuildsWithin (sum n)
  product : BuildsWithin (product n)
  term : BuildsWithin (term n)
  simpleTerm : BuildsWithin (simpleTerm n)
  identifierTerm : ∀ name, BuildsWithin (identifierTerm n name)
  subqueryTerm : ∀ keyword, BuildsWithin (subqueryTerm n keyword)
  function : ∀ name, BuildsWithin (function n name)
  trimCall : BuildsWithin (trimCall n)

/-- A step of a path run on its own from a formed binder, in a block of its graph and from an
item of it, leaves a formed binder with a larger graph, and a step within it. -/
theorem navigate_run_formed {q : QueryId} {parent : FromId} {field : String}
    {semantics : JoinSemantics} {b b' : Binder} {r : Bound} (hb : b.Formed)
    (hq : q.idx < b.graph.blocks.size) (hparent : parent.idx < b.graph.items.size)
    (h : (Binding.navigate q parent field semantics).run b = .ok (r, b')) :
  b'.Formed ∧ b.graph.extent ≤ b'.graph.extent ∧ r.toExpr.Within b'.graph.extent
  := Triple.run_eq_ok (Binding.navigate_formed q parent field semantics b)
    ⟨hb, Extent.le_refl _, hq, hparent⟩ h

/-- The values `MEMBER OF` compares hold what the item held. -/
theorem within_memberValues {b : Binder} {c : CollectionRef} {item : Expr} {vs : List Expr}
    {x : Extent} (h : memberValues b c item = .ok vs) (hitem : item.Within x) :
  ∀ v ∈ vs, v.Within x
  := by
  unfold memberValues at h
  split at h
  · dsimp only at h
    split at h <;> cases h
    intro v hv
    obtain ⟨k, hk, rfl⟩ := List.mem_map.mp hv
    exact Binder.within_entityKeys hitem k hk
  · split at h <;> cases h
    intro v hv
    rw [List.mem_singleton.mp hv]
    exact hitem
  · cases h

theorem within_objectOf {e r : Expr} {x : Extent} (h : objectOf e = .ok r) (he : e.Within x) :
  r.Within x
  := by
  unfold objectOf at h
  split at h <;> cases h
  exact he

/-- Reading a FROM clause keeps a reader formed, and the `JOIN FETCH` declarations it returns name
items of the graph. The pending declarations are handed over and cleared, so being formed is
unfolded. -/
theorem fromClause_formed (q : QueryId) (s₀ : Reader) :
  ⦃fun s => ⌜s.Formed ∧ s₀.extent ≤ s.extent ∧ s.query = s₀.query ∧
      q.idx < s.binder.graph.blocks.size⌝⦄
  fromClause q
  ⦃⇓? r s => ⌜s.Formed ∧ s₀.extent ≤ s.extent ∧ s.query = s₀.query ∧
      ∀ x ∈ r.2.1, x.owner.idx < s.binder.graph.items.size ∧
        x.target.idx < s.binder.graph.items.size⌝⦄
  := by
  mvcgen [fromClause, mark_formed, budget_formed, skipToFrom_formed, skip_formed,
    fromList_formed, reset_formed] with grind [Reader.formed_iff]

theorem selectList_formed {item : Reading Expr} (hitem : BuildsWithin item) (hasFrom : Bool)
    (s₀ : Reader) :
  ⦃fun s => ⌜s.Formed ∧ s₀.extent ≤ s.extent ∧ s.query = s₀.query ∧ s.query.isSome⌝⦄
  selectList item hasFrom
  ⦃⇓? body s => ⌜s.Formed ∧ s₀.extent ≤ s.extent ∧ s.query = s₀.query ∧
      body.Within s.extent⌝⦄
  := by
  unfold BuildsWithin at hitem
  mvcgen [selectList, eatKeyword_formed, constructor_formed, budget_formed, hitem,
    resultItem_formed, eat_formed, expect_formed, checkKeyword_formed, unexpected, fail_spec,
    peek_formed] invariants
  | inv1 => ⇓? r s => ⌜s.Formed ∧ s₀.extent ≤ s.extent ∧ s.query = s₀.query ∧
      s.query.isSome ∧ r.2.Within s.extent⌝
  | inv2 => ⇓? r s => ⌜s.Formed ∧ s₀.extent ≤ s.extent ∧ s.query = s₀.query ∧
      s.query.isSome ∧ r.2.Within s.extent⌝
  with grind [Expr.Within.grow]

theorem groupByList_formed {item : Reading Expr} (hitem : BuildsWithin item) (s₀ : Reader) :
  ⦃fun s => ⌜s.Formed ∧ s₀.extent ≤ s.extent ∧ s.query = s₀.query ∧ s.query.isSome⌝⦄
  groupByList item
  ⦃⇓? es s => ⌜s.Formed ∧ s₀.extent ≤ s.extent ∧ s.query = s₀.query ∧
      ∀ e ∈ es, e.Within s.extent⌝⦄
  := by
  unfold BuildsWithin at hitem
  mvcgen [groupByList, expectKeyword_formed, budget_formed, hitem, values_formed,
    eat_formed] invariants
  | inv1 => ⇓? r s => ⌜s.Formed ∧ s₀.extent ≤ s.extent ∧ s.query = s₀.query ∧
      s.query.isSome ∧ ∀ e ∈ r.2, e.Within s.extent⌝
  with grind [Expr.Within.grow]

theorem orderByList_formed {item : Reading Expr} (hitem : BuildsWithin item) (s₀ : Reader) :
  ⦃fun s => ⌜s.Formed ∧ s₀.extent ≤ s.extent ∧ s.query = s₀.query ∧ s.query.isSome⌝⦄
  orderByList item
  ⦃⇓? ts s => ⌜s.Formed ∧ s₀.extent ≤ s.extent ∧ s.query = s₀.query ∧
      ∀ t ∈ ts, t.expr.Within s.extent⌝⦄
  := by
  unfold BuildsWithin at hitem
  mvcgen [orderByList, expectKeyword_formed, budget_formed, hitem, eatKeyword_formed,
    values_formed, eat_formed] invariants
  | inv1 => ⇓? r s => ⌜s.Formed ∧ s₀.extent ≤ s.extent ∧ s.query = s₀.query ∧
      s.query.isSome ∧ ∀ t ∈ r.2, t.expr.Within s.extent⌝
  with grind [Expr.Within.grow]

theorem withFetches_formed (q : QueryId) (body : SelectBody) (fetches : List FetchJoin)
    (s₀ : Reader) :
  ⦃fun s => ⌜s.Formed ∧ s₀.extent ≤ s.extent ∧ s.query = s₀.query ∧ body.Within s.extent ∧
      ∀ x ∈ fetches, x.owner.idx < s.binder.graph.items.size ∧
        x.target.idx < s.binder.graph.items.size⌝⦄
  withFetches q body fetches
  ⦃⇓? body s => ⌜s.Formed ∧ s₀.extent ≤ s.extent ∧ s.query = s₀.query ∧
      body.Within s.extent⌝⦄
  := by
  mvcgen [withFetches, fail_spec, binder_formed] with grind [Expr.Within.grow, Expr.Within]

theorem clauses_formed {item cond : Reading Expr} (hitem : BuildsWithin item)
    (hcond : BuildsWithin cond) (body : SelectBody) (s₀ : Reader) :
  ⦃fun s => ⌜s.Formed ∧ s₀.extent ≤ s.extent ∧ s.query = s₀.query ∧ s.query.isSome ∧
      body.Within s.extent⌝⦄
  clauses item cond body
  ⦃⇓? body s => ⌜s.Formed ∧ s₀.extent ≤ s.extent ∧ s.query = s₀.query ∧
      body.Within s.extent⌝⦄
  := by
  have hgroup := groupByList_formed hitem
  have horder := orderByList_formed hitem
  unfold BuildsWithin at hcond
  mvcgen [clauses, eatKeyword_formed, hcond, hgroup, checkKeyword_formed, fail_spec,
    skip_formed, horder]
  with grind [Expr.Within.grow]

section Steps

variable {n : Nat} (ih : KeepsGraph n)
include ih

theorem condition_formed_step : BuildsWithin (condition (n + 1)) := by
  have hexpr := ih.expr
  unfold BuildsWithin at hexpr ⊢
  intro s₀
  mvcgen [condition, hexpr, scalar_formed] with grind

theorem expr_formed_step : BuildsWithin (expr (n + 1)) := by
  have hselect := ih.select
  have hdisj := ih.disjunction
  unfold BuildsWithin at hdisj ⊢
  intro s₀
  mvcgen [expr, checkKeyword_formed, hselect, hdisj] with grind [Expr.Within]

theorem disjunction_formed_step : BuildsWithin (disjunction (n + 1)) := by
  have hconj := ih.conjunction
  unfold BuildsWithin at hconj ⊢
  intro s₀
  mvcgen [disjunction, hconj, checkKeyword_formed, scalar_formed, budget_formed,
    eatKeyword_formed] invariants
  | inv1 => ⇓? r s => ⌜s.Formed ∧ s₀.extent ≤ s.extent ∧ s.query = s₀.query ∧
      s.query.isSome ∧ ∀ p ∈ r.2, p.Within s.extent⌝
  with grind [Expr.Within.grow, Expr.within_disjunction, Expr.withinAll_iff]

theorem concatenation_formed_step : BuildsWithin (concatenation (n + 1)) := by
  have hsum := ih.sum
  unfold BuildsWithin at hsum ⊢
  intro s₀
  mvcgen [concatenation, hsum, budget_formed, eat_formed, scalar_formed] invariants
  | inv1 => ⇓? r s => ⌜s.Formed ∧ s₀.extent ≤ s.extent ∧ s.query = s₀.query ∧
      s.query.isSome ∧ r.2.Within s.extent⌝
  with grind [Expr.Within.grow, Expr.Within]

theorem conjunction_formed_step : BuildsWithin (conjunction (n + 1)) := by
  have hneg := ih.negation
  unfold BuildsWithin at hneg ⊢
  intro s₀
  mvcgen [conjunction, hneg, checkKeyword_formed, scalar_formed, budget_formed,
    eatKeyword_formed] invariants
  | inv1 => ⇓? r s => ⌜s.Formed ∧ s₀.extent ≤ s.extent ∧ s.query = s₀.query ∧
      s.query.isSome ∧ ∀ p ∈ r.2, p.Within s.extent⌝
  with grind [Expr.Within.grow, Expr.within_conjunction, Expr.withinAll_iff]

theorem negation_formed_step : BuildsWithin (negation (n + 1)) := by
  have hneg := ih.negation
  have hcmp := ih.comparison
  unfold BuildsWithin at hneg hcmp ⊢
  intro s₀
  mvcgen [negation, eatKeyword_formed, hneg, hcmp, scalar_formed] with grind [Expr.Within]

theorem sum_formed_step : BuildsWithin (sum (n + 1)) := by
  have hproduct := ih.product
  unfold BuildsWithin at hproduct ⊢
  intro s₀
  mvcgen [sum, hproduct, budget_formed, peek_formed, skip_formed, scalar_formed] invariants
  | inv1 => ⇓? r s => ⌜s.Formed ∧ s₀.extent ≤ s.extent ∧ s.query = s₀.query ∧
      s.query.isSome ∧ r.2.Within s.extent⌝
  with grind [Expr.Within.grow, Expr.Within]

theorem product_formed_step : BuildsWithin (product (n + 1)) := by
  have hterm := ih.term
  unfold BuildsWithin at hterm ⊢
  intro s₀
  mvcgen [product, hterm, budget_formed, peek_formed, skip_formed, scalar_formed] invariants
  | inv1 => ⇓? r s => ⌜s.Formed ∧ s₀.extent ≤ s.extent ∧ s.query = s₀.query ∧
      s.query.isSome ∧ r.2.Within s.extent⌝
  with grind [Expr.Within.grow, Expr.Within]

theorem term_formed_step : BuildsWithin (term (n + 1)) := by
  have hterm := ih.term
  have hsimple := ih.simpleTerm
  unfold BuildsWithin at hterm hsimple ⊢
  intro s₀
  mvcgen [term, peek_formed, hsimple, skip_formed, hterm, scalar_formed] with grind [Expr.Within]

theorem comparison_formed_step : BuildsWithin (comparison (n + 1)) := by
  have hconcat := ih.concatenation
  have hin := ih.inPredicate
  have hmember := ih.memberOf
  unfold BuildsWithin at hconcat ⊢
  unfold ExtendsWithin at hin hmember
  intro s₀
  mvcgen [comparison, hconcat, eatKeyword_formed, peek_formed, skip_formed, expectKeyword_formed,
    scalar_formed, next_formed, fail_spec, isTest_formed, hin, hmember, compare_formed]
  with grind [Expr.Within.grow, Expr.Within]

theorem inPredicate_formed_step :
    ∀ left negated, ExtendsWithin left (inPredicate (n + 1) left negated) := by
  have hselect := ih.select
  have hexpr := ih.expr
  unfold BuildsWithin at hexpr
  intro left negated s₀
  mvcgen [inPredicate, expect_formed, checkKeyword_formed, hselect, check_formed, fail_spec,
    budget_formed, hexpr, scalar_formed, eat_formed] invariants
  | inv1 => ⇓? r s => ⌜s.Formed ∧ s₀.extent ≤ s.extent ∧ s.query = s₀.query ∧
      s.query.isSome ∧ left.Within s.extent ∧ ∀ v ∈ r.2, v.Within s.extent⌝
  with grind [Expr.Within.grow, Expr.Within, Expr.withinAll_iff]

theorem memberOf_formed_step :
    ∀ item negated, ExtendsWithin item (memberOf (n + 1) item negated) := by
  have hconcat := ih.concatenation
  unfold BuildsWithin at hconcat
  intro item negated s₀
  mvcgen [memberOf, hconcat, fail_spec, orFail, binder_formed]
  with grind [Expr.Within.grow, Expr.Within, Expr.withinAll_iff, within_memberValues]

theorem simpleTerm_formed_step : BuildsWithin (simpleTerm (n + 1)) := by
  have hid := ih.identifierTerm
  have hfun := ih.function
  have hexpr := ih.expr
  unfold BuildsWithin at hid hfun hexpr ⊢
  intro s₀
  mvcgen [simpleTerm, next_formed, hid, check_formed, hfun, unexpected, fail_spec,
    bind_argument_formed, hexpr, expect_formed]
  with grind [Expr.Within.grow, Expr.Within]

theorem identifierTerm_formed_step : ∀ name, BuildsWithin (identifierTerm (n + 1) name) := by
  have hsub := ih.subqueryTerm
  have hfun := ih.function
  unfold BuildsWithin at hsub hfun ⊢
  intro name s₀
  mvcgen [identifierTerm, check_formed, hsub, hfun, current_formed, binder_formed, fail_spec,
    path_formed] with
  | vc10 =>
    rename_i hcur _ _ _ _ hfirst _ _ hrun _ hbin t
    simp only [t]
    obtain ⟨hf, hx, hq, rfl, -, hfirstLt⟩ := hbin
    obtain ⟨hb', hk, hnav⟩ := navigate_run_formed hf.binder (by grind) (hfirstLt _ _ hfirst) hrun
    exact ⟨hf.withBinder hb' hk, by grind, by grind, by grind, hnav⟩
  all_goals grind [Expr.Within.grow, Expr.Within, Bound.toExpr]

theorem subqueryTerm_formed_step : ∀ keyword, BuildsWithin (subqueryTerm (n + 1) keyword) := by
  have hselect := ih.select
  unfold BuildsWithin
  intro keyword s₀
  mvcgen [subqueryTerm, expect_formed, checkKeyword_formed, fail_spec, hselect]
  with grind [Expr.Within]

theorem function_formed_step : ∀ name, BuildsWithin (function (n + 1) name) := by
  have hexpr := ih.expr
  have htrim := ih.trimCall
  unfold BuildsWithin at hexpr htrim ⊢
  intro name s₀
  mvcgen [function, expect_formed, hexpr, orFail, fail_spec, htrim, eatKeyword_formed,
    eat_formed, check_formed, budget_formed, buildFunction_formed] invariants
  | inv1 => ⇓? r s => ⌜s.Formed ∧ s₀.extent ≤ s.extent ∧ s.query = s₀.query ∧
      s.query.isSome ∧ ∀ a ∈ r.2, a.Within s.extent⌝
  with grind [Expr.Within.grow, within_objectOf]

theorem trimCall_formed_step : BuildsWithin (trimCall (n + 1)) := by
  have hexpr := ih.expr
  unfold BuildsWithin at hexpr ⊢
  intro s₀
  mvcgen [trimCall, peek_formed, skip_formed, eatKeyword_formed, hexpr, scalar_formed,
    unexpected, fail_spec, expect_formed]
  with grind [Expr.Within.grow, Expr.Within]

/-- A SELECT read one level deeper keeps a reader formed and returns a block of the graph. The block
and the join state are set around the body, so `modifyBlock` is unfolded rather than taken through
its triple, and the body read is written into the new block beside the block's own filters. -/
theorem select_formed_step : ∀ inner (s₀ : Reader),
    ⦃fun s => ⌜s.Formed ∧ s₀.extent ≤ s.extent ∧ s.query = s₀.query⌝⦄
    select (n + 1) inner
    ⦃⇓? q s => ⌜s.Formed ∧ s₀.extent ≤ s.extent ∧ s.query = s₀.query ∧
        q.idx < s.binder.graph.blocks.size⌝⦄ := by
  have hbody := ih.selectBody
  intro inner s₀
  mvcgen [select, bind_newQuery_formed, enterBlock_formed, hbody, modifyBlock] with
  | vc7 =>
    rename_i hs _ q _ _ _ _ _ _ body _ hb t₁ t
    simp only [t, t₁]
    obtain ⟨hf, hx, -, hwithin⟩ := hb
    have hwf := @Graph.WellFormed.setBody _ hf.binder.graph q (.select body) hwithin.1
      fun sb hsb => by cases hsb; exact hwithin.2
    have hbinder := hf.binder.withGraph hwf (hf.binder.placed.modifyBlock q _ fun _ => rfl)
      (by simp)
    refine ⟨(Reader.formed_iff _).mpr ⟨hbinder, fun p hp => ?_, hf.fetches⟩, ?_, hs.2.2, ?_⟩
    · simp only [Graph.size_blocks_modifyBlock]
      grind
    · simp only [Reader.extent_eq, Graph.extent_modifyBlock]
      grind
    · simp only [Graph.size_blocks_modifyBlock]
      grind
  all_goals grind [Reader.formed_iff, Body.expressions]

theorem selectBody_formed_step : ∀ q inner (s₀ : Reader),
    ⦃fun s => ⌜s.Formed ∧ s₀.extent ≤ s.extent ∧ s.query = some q⌝⦄
    selectBody (n + 1) q inner
    ⦃⇓? body s => ⌜s.Formed ∧ s₀.extent ≤ s.extent ∧ s.query = some q ∧
        body.Within s.extent⌝⦄ := by
  have hlist := selectList_formed ih.expr
  have hclauses := clauses_formed ih.expr ih.condition
  intro q inner s₀
  mvcgen [selectBody, fromClause_formed, hlist, reset_formed, withFetches_formed, hclauses,
    expectEnd_formed]
  with grind [Expr.Within.grow]

/-- One more level of nesting keeps everything the level below keeps. -/
theorem KeepsGraph.succ : KeepsGraph (n + 1) :=
  ⟨select_formed_step ih, selectBody_formed_step ih, condition_formed_step ih,
    expr_formed_step ih, disjunction_formed_step ih, conjunction_formed_step ih,
    negation_formed_step ih, comparison_formed_step ih, inPredicate_formed_step ih,
    memberOf_formed_step ih, concatenation_formed_step ih, sum_formed_step ih,
    product_formed_step ih, term_formed_step ih, simpleTerm_formed_step ih,
    identifierTerm_formed_step ih, subqueryTerm_formed_step ih, function_formed_step ih,
    trimCall_formed_step ih⟩

end Steps

/-- With no nesting left, every function of the grammar fails at once. -/
theorem KeepsGraph.zero : KeepsGraph 0 where
  select _ _ := tooDeep_spec _ _
  selectBody _ _ _ := tooDeep_spec _ _
  condition _ := tooDeep_spec _ _
  expr _ := tooDeep_spec _ _
  disjunction _ := tooDeep_spec _ _
  conjunction _ := tooDeep_spec _ _
  negation _ := tooDeep_spec _ _
  comparison _ := tooDeep_spec _ _
  inPredicate _ _ _ := tooDeep_spec _ _
  memberOf _ _ _ := tooDeep_spec _ _
  concatenation _ := tooDeep_spec _ _
  sum _ := tooDeep_spec _ _
  product _ := tooDeep_spec _ _
  term _ := tooDeep_spec _ _
  simpleTerm _ := tooDeep_spec _ _
  identifierTerm _ _ := tooDeep_spec _ _
  subqueryTerm _ _ := tooDeep_spec _ _
  function _ _ := tooDeep_spec _ _
  trimCall _ := tooDeep_spec _ _

/-- The functions of the grammar keep a formed reader formed, whatever nesting is left. -/
theorem keepsGraph : ∀ n, KeepsGraph n
  | 0 => KeepsGraph.zero
  | n + 1 => (keepsGraph n).succ

/-! ### Statements -/

/-- Writing into a block a body within the graph keeps the reader formed. -/
theorem setBody_formed (q : QueryId) (body : Body) (s₀ : Reader) :
  ⦃fun s => ⌜s.Formed ∧ s₀.extent ≤ s.extent ∧ s.query = s₀.query ∧
      (∀ e ∈ body.expressions, e.Within s.extent) ∧
      ∀ sb, body = .select sb → ∀ x ∈ sb.fetches,
        x.owner.idx < s.binder.graph.items.size ∧ x.target.idx < s.binder.graph.items.size⌝⦄
  modifyBlock q (fun b => { b with body })
  ⦃⇓? _ s => ⌜s.Formed ∧ s₀.extent ≤ s.extent ∧ s.query = s₀.query⌝⦄
  := by
  have hm := modifyBlock_formed q (fun b => { b with body }) (fun _ => rfl) s₀
  mvcgen [hm] with
  | vc1 s hs =>
    obtain ⟨hf, hx, hq, hexprs, hfetches⟩ := hs
    exact ⟨hf, hx, hq, hf.setBody q hexprs hfetches⟩

/-- An UPDATE reads in a new block of its own, which it returns. The loop over the assignments keeps
the block entered and grows the graph from the state it starts in; a failure inside it leaves
nothing to prove. -/
theorem update_formed (fuel : Nat) (s₀ : Reader) :
  ⦃fun s => ⌜s.Formed ∧ s₀.extent ≤ s.extent⌝⦄
  update fuel
  ⦃⇓? q s => ⌜s.Formed ∧ s₀.extent ≤ s.extent ∧ q.idx < s.binder.graph.blocks.size⌝⦄
  := by
  have hexpr := (keepsGraph fuel).expr
  have hcond := (keepsGraph fuel).condition
  unfold BuildsWithin at hexpr hcond
  mvcgen [update, expectKeyword_formed, bind_newQuery_formed, enterBlock_formed,
    bulkTarget_formed, binder_formed, budget_formed, fieldName_formed, eat_formed, fail_spec,
    expect_formed, hexpr, scalar_formed, eatKeyword_formed, hcond, expectEnd_formed,
    setBody_formed]
  case inv1 =>
    rename_i entry _
    exact ⇓? r s => ⌜s.Formed ∧ entry.extent ≤ s.extent ∧ s.query = entry.query ∧
      ∀ a ∈ r.2, a.value.Within s.extent⌝
  all_goals clear hexpr hcond
  all_goals first
    | exact fun _ => trivial
    | grind [Expr.Within.grow, Body.expressions]

/-- A DELETE reads in a new block of its own, which it returns. -/
theorem delete_formed (fuel : Nat) (s₀ : Reader) :
  ⦃fun s => ⌜s.Formed ∧ s₀.extent ≤ s.extent⌝⦄
  delete fuel
  ⦃⇓? q s => ⌜s.Formed ∧ s₀.extent ≤ s.extent ∧ q.idx < s.binder.graph.blocks.size⌝⦄
  := by
  have hcond := (keepsGraph fuel).condition
  unfold BuildsWithin at hcond
  mvcgen [delete, expectKeyword_formed, bind_newQuery_formed, enterBlock_formed,
    eatKeyword_formed, bulkTarget_formed, hcond, expectEnd_formed, setBody_formed]
  with grind [Expr.Within.grow, Body.expressions]

/-- A statement is read into a block of its own. -/
theorem statement_formed (fuel : Nat) (s₀ : Reader) :
  ⦃fun s => ⌜s.Formed ∧ s₀.extent ≤ s.extent⌝⦄
  statement fuel
  ⦃⇓? q s => ⌜s.Formed ∧ s₀.extent ≤ s.extent ∧ q.idx < s.binder.graph.blocks.size⌝⦄
  := by
  have hselect := (keepsGraph fuel).select false
  mvcgen [statement, checkKeyword_formed, update_formed, delete_formed, hselect] with grind

end Grammar

namespace ParsedQuery

/-- A reader that has read nothing is formed: its graph is empty, and it reads in no block. -/
theorem formed_start (scanner : Scanner) (b : Binder) (hg : b.graph = {}) (hp : b.paths = []) :
  ({ scanner, binder := b } : Reader).Formed
  := by
  refine ⟨⟨hg ▸ Graph.WellFormed.empty, fun k f hkf => ?_, hg ▸ Graph.Placed.empty⟩,
    fun q hq => (nomatch hq), fun x hx => (nomatch hx)⟩
  rw [hp] at hkf
  cases hkf

/-- A statement read from any text is the graph of a formed binder, and the block of the
statement is one of its blocks. -/
theorem formed_read {schema : Schema} {aliasPrefix text : String} {p : ParsedQuery}
    (h : read schema aliasPrefix text = .ok p) :
  ∃ b : Binder, b.Formed ∧ b.graph = p.graph ∧ p.root.idx < p.graph.blocks.size
  := by
  unfold read at h
  simp only [Bind.bind, Except.bind] at h
  split at h
  · cases h
  · rename_i r hrun
    cases h
    have hstart := formed_start (Scanner.ofString text)
      { Binder.ofSchema schema aliasPrefix with
        reserved := (identifiers text).map (·.map Char.toLower) } rfl rfl
    obtain ⟨hf, -, hroot⟩ :=
      Triple.run_eq_ok (Grammar.statement_formed _ _) ⟨hstart, Extent.le_refl _⟩ hrun
    exact ⟨_, hf.binder, rfl, hroot⟩

/-- A statement read from any text is a well-formed graph, and the block of the statement is
one of its blocks. -/
theorem wellFormed_read {schema : Schema} {aliasPrefix text : String} {p : ParsedQuery}
    (h : read schema aliasPrefix text = .ok p) :
  p.graph.WellFormed ∧ p.root.idx < p.graph.blocks.size
  := by
  obtain ⟨b, hb, hg, hroot⟩ := formed_read h
  exact ⟨hg ▸ hb.graph, hroot⟩

/-- A statement read from any text places each item in the FROM list of its block, and filters
joins only by the discriminators of the items joined. -/
theorem placed_read {schema : Schema} {aliasPrefix text : String} {p : ParsedQuery}
    (h : read schema aliasPrefix text = .ok p) :
  p.graph.Placed
  := by
  obtain ⟨b, hb, hg, -⟩ := formed_read h
  exact hg ▸ hb.placed

end ParsedQuery

end EntityQuery
