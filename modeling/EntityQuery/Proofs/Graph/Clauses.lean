import Mathlib
import EntityQuery.Proofs.Graph.Reading
import EntityQuery.Proofs.Query.Clauses

/-!
# The clauses around expressions keep the reader formed

The parts of the grammar that are not mutually recursive keep a formed reader formed, let its
graph only grow and keep the block it reads in. The FROM clause declares items of the block it
is given, which must be a block of the graph: each declaration gives an item of the graph, each
path steps from one, and each `JOIN FETCH` it records names two. The steps that build an
expression build one within the graph from operands within it: a path names the items it steps
through, a comparison of two entities names their identity columns or the join between them,
and a function call holds its arguments only.
-/

open Std.Do

set_option mvcgen.warning false

namespace EntityQuery

open Reading

/-- The join that an equality of two items of the graph expresses joins items of the graph:
the item the path stepped from, and the other item. -/
theorem Binder.within_joinForEquality {b : Binder} (hb : b.graph.WellFormed) {q : QueryId}
    {l r : FromId} {link : Link} (hl : l.idx < b.graph.items.size)
    (hr : r.idx < b.graph.items.size) (h : b.joinForEquality q l r = some link) :
  link.Within b.graph.extent
  := by
  have hone : ∀ nav root : FromId, root.idx < b.graph.items.size →
      b.equalityJoin q nav root = some link → link.Within b.graph.extent := by
    intro nav root hroot he
    simp only [Binder.equalityJoin] at he
    split at he
    · cases he
    · rename_i j hj
      split at he
      · cases he
      · cases he
        exact ⟨(hb.join nav j hj).2.1, hroot⟩
  unfold Binder.joinForEquality at h
  split at h
  · rename_i l' hl'
    cases h
    exact hone l r hr hl'
  · exact hone r l hl h

/-- The identity columns of two items of the graph, compared pairwise, are within it. -/
theorem Binder.within_keyPairs {b : Binder} {l r : FromId} {x : Extent} (hl : l.idx < x.items)
    (hr : r.idx < x.items) (op : BinOp) :
  ∀ p ∈ ((b.entityKeys l).zip (b.entityKeys r)).map
    (fun x => Expr.binary op (.column x.1) (.column x.2)), p.Within x
  := by
  intro p hp
  obtain ⟨⟨a, c⟩, hac, rfl⟩ := List.mem_map.mp hp
  exact ⟨within_entityKeys hl a (List.of_mem_zip hac).1,
    within_entityKeys hr c (List.of_mem_zip hac).2⟩

namespace Grammar

/-! ### Names and FROM declarations -/

theorem skipToFrom_formed (fuel depth : Nat) (s₀ : Reader) :
  ⦃fun s => ⌜s.Formed ∧ s₀.extent ≤ s.extent ∧ s.query = s₀.query⌝⦄
  skipToFrom fuel depth
  ⦃⇓? _ s => ⌜s.Formed ∧ s₀.extent ≤ s.extent ∧ s.query = s₀.query⌝⦄
  := by
  induction fuel generalizing depth with
  | zero => mvcgen [skipToFrom]
  | succ n ih => mvcgen [skipToFrom, peek_formed, skip_formed, ih] with grind

theorem dottedRest_formed (fuel : Nat) (name : String) (s₀ : Reader) :
  ⦃fun s => ⌜s.Formed ∧ s₀.extent ≤ s.extent ∧ s.query = s₀.query⌝⦄
  dottedRest fuel name
  ⦃⇓? _ s => ⌜s.Formed ∧ s₀.extent ≤ s.extent ∧ s.query = s₀.query⌝⦄
  := by
  induction fuel generalizing name with
  | zero => mvcgen [dottedRest]
  | succ n ih => mvcgen [dottedRest, eat_formed, fieldName_formed, ih] with grind

theorem constructor_formed (s₀ : Reader) :
  ⦃fun s => ⌜s.Formed ∧ s₀.extent ≤ s.extent ∧ s.query = s₀.query⌝⦄
  constructor
  ⦃⇓? _ s => ⌜s.Formed ∧ s₀.extent ≤ s.extent ∧ s.query = s₀.query⌝⦄
  := by
  mvcgen [constructor, expectIdentifier_formed, dottedRest_formed, budget_formed, fail_spec,
    expect_formed, binder_formed] with grind

theorem entityName_go_formed (fuel : Nat) (name tail : String) (s₀ : Reader) :
  ⦃fun s => ⌜s.Formed ∧ s₀.extent ≤ s.extent ∧ s.query = s₀.query⌝⦄
  entityName.go fuel name tail
  ⦃⇓? _ s => ⌜s.Formed ∧ s₀.extent ≤ s.extent ∧ s.query = s₀.query⌝⦄
  := by
  induction fuel generalizing name tail with
  | zero =>
    mvcgen [entityName.go, fail_spec]
    grind
  | succ n ih =>
    mvcgen [entityName.go, binder_formed, eat_formed, fail_spec, fieldName_formed, ih] with grind

theorem entityName_formed (s₀ : Reader) :
  ⦃fun s => ⌜s.Formed ∧ s₀.extent ≤ s.extent ∧ s.query = s₀.query⌝⦄
  entityName
  ⦃⇓? _ s => ⌜s.Formed ∧ s₀.extent ≤ s.extent ∧ s.query = s₀.query⌝⦄
  := by
  mvcgen [entityName, word_formed, budget_formed, entityName_go_formed] with grind

theorem aliasName_formed (s₀ : Reader) :
  ⦃fun s => ⌜s.Formed ∧ s₀.extent ≤ s.extent ∧ s.query = s₀.query⌝⦄
  aliasName?
  ⦃⇓? _ s => ⌜s.Formed ∧ s₀.extent ≤ s.extent ∧ s.query = s₀.query⌝⦄
  := by
  mvcgen [aliasName?, eatKeyword_formed, expectIdentifier_formed, peek_formed] with grind

/-- The target of an UPDATE or DELETE is an item of the graph. -/
theorem bulkTarget_formed (q : QueryId) (s₀ : Reader) :
  ⦃fun s => ⌜s.Formed ∧ s₀.extent ≤ s.extent ∧ s.query = s₀.query ∧
      q.idx < s.binder.graph.blocks.size⌝⦄
  bulkTarget q
  ⦃⇓? f s => ⌜s.Formed ∧ s₀.extent ≤ s.extent ∧ s.query = s₀.query ∧
      f.idx < s.binder.graph.items.size⌝⦄
  := by
  mvcgen [bulkTarget, entityName_formed, aliasName_formed, bind_declareRoot_formed] with grind

theorem segments_formed (fuel : Nat) (acc : List String) (s₀ : Reader) :
  ⦃fun s => ⌜s.Formed ∧ s₀.extent ≤ s.extent ∧ s.query = s₀.query⌝⦄
  segments fuel acc
  ⦃⇓? _ s => ⌜s.Formed ∧ s₀.extent ≤ s.extent ∧ s.query = s₀.query⌝⦄
  := by
  induction fuel generalizing acc with
  | zero => mvcgen [segments]
  | succ n ih => mvcgen [segments, eat_formed, fieldName_formed, ih] with grind

/-- A path declared in FROM starts from an item of the graph. -/
theorem fromSource_formed (q : QueryId) (isIn : Bool) (s₀ : Reader) :
  ⦃fun s => ⌜s.Formed ∧ s₀.extent ≤ s.extent ∧ s.query = s₀.query⌝⦄
  fromSource q isIn
  ⦃⇓? r s => ⌜s.Formed ∧ s₀.extent ≤ s.extent ∧ s.query = s₀.query ∧
      ∀ root segs, r = .path root segs → root.idx < s.binder.graph.items.size⌝⦄
  := by
  mvcgen [fromSource, peek_formed, binder_formed, entityName_formed, expectIdentifier_formed,
    fail_spec, segments_formed, budget_formed] with grind

/-- A FROM path steps from items of the graph to an item of the graph, and the `JOIN FETCH` it may
record names two of them. The declaration it records changes the pending ones, so being formed is
unfolded. -/
theorem declarePath_formed (q : QueryId) (root : FromId) (segs : List String)
    (aliasName : Option String) (s₀ : Reader) :
  ⦃fun s => ⌜s.Formed ∧ s₀.extent ≤ s.extent ∧ s.query = s₀.query ∧
      q.idx < s.binder.graph.blocks.size ∧ root.idx < s.binder.graph.items.size⌝⦄
  declarePath q root segs aliasName
  ⦃⇓? f s => ⌜s.Formed ∧ s₀.extent ≤ s.extent ∧ s.query = s₀.query ∧
      f.idx < s.binder.graph.items.size⌝⦄
  := by
  mvcgen [declarePath, fail_spec, bind_navigate_formed, bind_generateAlias_formed,
    bind_declarePath_formed, bind_markFetch_formed, binder_formed] invariants
  | inv1 => ⇓? r s => ⌜s.Formed ∧ s₀.extent ≤ s.extent ∧ s.query = s₀.query ∧
      q.idx < s.binder.graph.blocks.size ∧ root.idx < s.binder.graph.items.size ∧
      r.2.idx < s.binder.graph.items.size⌝
  with grind [Bound.toExpr, Expr.Within, Reader.formed_iff]

/-- Declaring a FROM source keeps a reader formed and gives an item of the graph. The source is
split before `mvcgen`, where it is still a variable. -/
theorem declareSource_formed (q : QueryId) (source : FromSource) (aliasName : Option String)
    (s₀ : Reader) :
  ⦃fun s => ⌜s.Formed ∧ s₀.extent ≤ s.extent ∧ s.query = s₀.query ∧
      q.idx < s.binder.graph.blocks.size ∧
      ∀ root segs, source = .path root segs → root.idx < s.binder.graph.items.size⌝⦄
  declareSource q source aliasName
  ⦃⇓? f s => ⌜s.Formed ∧ s₀.extent ≤ s.extent ∧ s.query = s₀.query ∧
      f.idx < s.binder.graph.items.size⌝⦄
  := by
  cases source
  · mvcgen [declareSource, fail_spec, bind_declareRoot_formed] with grind
  · mvcgen [declareSource, declarePath_formed] with grind

theorem fromItem_formed (q : QueryId) (s₀ : Reader) :
  ⦃fun s => ⌜s.Formed ∧ s₀.extent ≤ s.extent ∧ s.query = s₀.query ∧
      q.idx < s.binder.graph.blocks.size⌝⦄
  fromItem q
  ⦃⇓? f s => ⌜s.Formed ∧ s₀.extent ≤ s.extent ∧ s.query = s₀.query ∧
      f.idx < s.binder.graph.items.size⌝⦄
  := by
  mvcgen [fromItem, eatKeyword_formed, expect_formed, fromSource_formed, aliasName_formed,
    declareSource_formed] with grind

theorem fromList_formed (q : QueryId) (s₀ : Reader) :
  ⦃fun s => ⌜s.Formed ∧ s₀.extent ≤ s.extent ∧ s.query = s₀.query ∧
      q.idx < s.binder.graph.blocks.size⌝⦄
  fromList q
  ⦃⇓? _ s => ⌜s.Formed ∧ s₀.extent ≤ s.extent ∧ s.query = s₀.query⌝⦄
  := by
  mvcgen [fromList, clearJoin, budget_formed, fromItem_formed, eat_formed, eatKeyword_formed,
    expectKeyword_formed] invariants
  | inv1 => ⇓? _ s => ⌜s.Formed ∧ s₀.extent ≤ s.extent ∧ s.query = s₀.query ∧
      q.idx < s.binder.graph.blocks.size⌝
  with grind

/-! ### Paths and operands -/

/-- Inside a block, a path from a step within the graph ends at a step within it. -/
theorem path_formed (start : Bound) (s₀ : Reader) :
  ⦃fun s => ⌜s.Formed ∧ s₀.extent ≤ s.extent ∧ s.query = s₀.query ∧ s.query.isSome ∧
      start.toExpr.Within s.extent⌝⦄
  path start
  ⦃⇓? r s => ⌜s.Formed ∧ s₀.extent ≤ s.extent ∧ s.query = s₀.query ∧ r.Within s.extent⌝⦄
  := by
  mvcgen [path, budget_formed, eat_formed, fieldName_formed, current_formed,
    bind_navigate_formed, check_formed, fail_spec] invariants
  | inv1 => ⇓? r s => ⌜s.Formed ∧ s₀.extent ≤ s.extent ∧ s.query = s₀.query ∧
      s.query.isSome ∧ r.2.toExpr.Within s.extent⌝
  with grind [Expr.Within.mono, Bound.toExpr, Expr.Within]

theorem within_emptyTest {e r : Expr} {negated : Bool} {x : Extent}
    (h : emptyTest e negated = .ok r) (he : e.Within x) :
  r.Within x
  := by
  unfold emptyTest at h
  split at h <;> cases h
  exact he

theorem isTest_formed (e : Expr) (s₀ : Reader) :
  ⦃fun s => ⌜s.Formed ∧ s₀.extent ≤ s.extent ∧ s.query = s₀.query ∧ e.Within s.extent⌝⦄
  isTest e
  ⦃⇓? r s => ⌜s.Formed ∧ s₀.extent ≤ s.extent ∧ s.query = s₀.query ∧ r.Within s.extent⌝⦄
  := by
  mvcgen [isTest, eatKeyword_formed, next_formed, values_formed, orFail, fail_spec, unexpected]
  with grind [Expr.Within.mono, Expr.within_conjunction, Expr.withinAll_iff, Expr.Within,
    within_emptyTest]

/-- Inside a block, a comparison of operands within the graph is within it: two entities are
compared by their identity columns, or by the join the equality expresses. -/
theorem compare_formed (op : BinOp) (left right : Expr) (s₀ : Reader) :
  ⦃fun s => ⌜s.Formed ∧ s₀.extent ≤ s.extent ∧ s.query = s₀.query ∧ s.query.isSome ∧
      left.Within s.extent ∧ right.Within s.extent⌝⦄
  compare op left right
  ⦃⇓? r s => ⌜s.Formed ∧ s₀.extent ≤ s.extent ∧ s.query = s₀.query ∧ r.Within s.extent⌝⦄
  := by
  mvcgen [compare, binder_formed, current_formed, fail_spec, scalar_formed]
  all_goals first
    | grind [Expr.Within.mono, Expr.Within]
    | (
      rename_i hb _ _ hj _ hc
      obtain ⟨hf, hx, hq, rfl, -⟩ := hb
      have hlink := Binder.within_joinForEquality hf.binder.graph (by grind [Expr.Within])
        (by grind [Expr.Within]) hj
      refine ⟨hc.1, by grind, by grind,
        Expr.within_join.mpr ⟨Link.Within.mono ?_ hlink,
          fun _ h => absurd h (Option.not_mem_none _)⟩⟩
      grind)
    | (
      refine ⟨by grind, by grind, by grind, ?_⟩
      split <;> simp only [Expr.within_disjunction, Expr.within_conjunction, Expr.withinAll_iff]
      all_goals exact Binder.within_keyPairs (by grind [Expr.Within]) (by grind [Expr.Within]) op)

theorem resultItem_formed (e : Expr) (hasFrom : Bool) (s₀ : Reader) :
  ⦃fun s => ⌜s.Formed ∧ s₀.extent ≤ s.extent ∧ s.query = s₀.query ∧ e.Within s.extent⌝⦄
  resultItem e hasFrom
  ⦃⇓? r s => ⌜s.Formed ∧ s₀.extent ≤ s.extent ∧ s.query = s₀.query ∧ r.Within s.extent⌝⦄
  := by
  mvcgen [resultItem, fail_spec] with grind [Expr.Within]

/-! ### Function calls -/

theorem checkArity_formed (function : String) (count least : Nat) (most : Option Nat)
    (s₀ : Reader) :
  ⦃fun s => ⌜s.Formed ∧ s₀.extent ≤ s.extent ∧ s.query = s₀.query⌝⦄
  checkArity function count least most
  ⦃⇓? _ s => ⌜s.Formed ∧ s₀.extent ≤ s.extent ∧ s.query = s₀.query⌝⦄
  := by
  unfold checkArity
  dsimp only
  split_ifs
  · generalize Reason.wrongArgumentCount function _ = r
    mvcgen [fail_spec] with grind
  · mvcgen

/-- Arguments taken as single values one after the other stay within the graph. -/
theorem mapM_scalar_formed (args : List Expr) (s₀ : Reader) :
  ⦃fun s => ⌜s.Formed ∧ s₀.extent ≤ s.extent ∧ s.query = s₀.query ∧
      ∀ a ∈ args, a.Within s.extent⌝⦄
  args.mapM scalar
  ⦃⇓? rs s => ⌜s.Formed ∧ s₀.extent ≤ s.extent ∧ s.query = s₀.query ∧
      ∀ r ∈ rs, r.Within s.extent⌝⦄
  := by
  induction args generalizing s₀ with
  | nil =>
    simp only [List.mapM_nil]
    mvcgen
  | cons a as ih =>
    simp only [List.mapM_cons]
    mvcgen [scalar_formed, ih] with grind [Expr.Within.mono]

/-- `LOCATE` rewritten into `CASE` and `POSITION` holds its arguments only. -/
theorem within_locate {args : List Expr} {x : Extent} (h : ∀ a ∈ args, a.Within x) :
  (locate args).Within x
  := by
  have hnth : ∀ k a, (args.drop k).head? = some a → a.Within x :=
    fun k a ha => h a (List.mem_of_mem_drop (List.mem_of_mem_head? ha))
  have hget : ∀ k, ((args.drop k).head?.getD .null).Within x := by
    intro k
    cases ha : (args.drop k).head? with
    | none => trivial
    | some a => exact hnth k a ha
  have hneedle : (args.head?.getD .null).Within x := hget 0
  unfold locate
  cases hs : (args.drop 2).head? with
  | none => simp only [Expr.Within, hneedle, hget 1, and_self]
  | some s => simp only [Expr.Within, Expr.WithinAll, hneedle, hget 1, hnth 2 s hs, and_self]

/-- `CONCAT` rewritten into a chain of `||` holds its arguments only. -/
theorem within_foldl_concat {x : Extent} :
    ∀ (rest : List Expr) (first : Expr), first.Within x → (∀ a ∈ rest, a.Within x) →
      (rest.foldl Expr.concat first).Within x
  | [], _, hf, _ => hf
  | a :: rest, first, hf, hr =>
    within_foldl_concat rest (.concat first a) ⟨hf, hr a (List.mem_cons_self ..)⟩
      fun b hb => hr b (List.mem_cons_of_mem a hb)

theorem within_sizeCall {args : List Expr} {r : Expr} {x : Extent} (h : sizeCall args = .ok r)
    (hargs : ∀ a ∈ args, a.Within x) :
  r.Within x
  := by
  unfold sizeCall at h
  split at h <;> cases h
  exact hargs (.collectionPath _) (List.mem_cons_self ..)

theorem buildFunction_formed (name : String) (args : List Expr) (distinct : Bool) (s₀ : Reader) :
  ⦃fun s => ⌜s.Formed ∧ s₀.extent ≤ s.extent ∧ s.query = s₀.query ∧
      ∀ a ∈ args, a.Within s.extent⌝⦄
  buildFunction name args distinct
  ⦃⇓? r s => ⌜s.Formed ∧ s₀.extent ≤ s.extent ∧ s.query = s₀.query ∧ r.Within s.extent⌝⦄
  := by
  mvcgen [buildFunction, checkArity_formed, orFail, fail_spec, mapM_scalar_formed] with
  | vc31 _ _ _ _ _ _ _ _ h₂ =>
    refine ⟨h₂.1, by grind, by grind, ?_⟩
    split
    · exact within_foldl_concat _ _ (h₂.2.2.2 _ (List.mem_cons_self ..))
        fun a ha => h₂.2.2.2 a (List.mem_cons_of_mem _ ha)
    · trivial
  all_goals grind [Expr.Within.mono, Expr.Within, Expr.withinAll_iff, within_sizeCall,
    within_locate]

end Grammar

end EntityQuery
