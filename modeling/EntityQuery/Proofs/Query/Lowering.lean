import Mathlib
import EntityQuery.Proofs.Query.Lowered
import EntityQuery.Proofs.Query.Parsed

/-!
# Reading lowers every path

Every function of the grammar keeps the reader's graph lowered (`Graph.Lowered`), and each
function that reads an expression gives back a shallow one: its parts are lowered, and it may
itself be a path or an entity loaded whole, which the context then lowers. `scalar` and `values`
lower through the binder, a select item loads an entity whole, the tests and comparisons lower
their operands, and a collection is kept only by the reference of `IS EMPTY`, `MEMBER OF` and
`SIZE`.

The steps of reading come first, then the parts of the grammar that are not mutually
recursive, then the functions of the grammar all at once, by induction on the nesting they may
still use (`Grammar.Lowers`), as for soundness. `ParsedQuery.lowered_read` concludes that every
statement read holds a lowered graph.
-/

open Std.Do

set_option mvcgen.warning false

namespace EntityQuery

open Reading

namespace Reading

/-! ### Tokens -/

theorem peek_lowered :
  ⦃fun s => ⌜s.binder.graph.Lowered⌝⦄ peek ⦃⇓? _ s => ⌜s.binder.graph.Lowered⌝⦄
  := by
  mvcgen [peek, scan]

theorem next_lowered :
  ⦃fun s => ⌜s.binder.graph.Lowered⌝⦄ next ⦃⇓? _ s => ⌜s.binder.graph.Lowered⌝⦄
  := by
  mvcgen [next, scan]

attribute [local spec] peek_lowered next_lowered

theorem skip_lowered :
  ⦃fun s => ⌜s.binder.graph.Lowered⌝⦄ skip ⦃⇓? _ s => ⌜s.binder.graph.Lowered⌝⦄
  := by
  mvcgen [skip]

theorem check_lowered (t : Token) :
  ⦃fun s => ⌜s.binder.graph.Lowered⌝⦄ check t ⦃⇓? _ s => ⌜s.binder.graph.Lowered⌝⦄
  := by
  mvcgen [check]

theorem checkKeyword_lowered (k : Keyword) :
  ⦃fun s => ⌜s.binder.graph.Lowered⌝⦄ checkKeyword k ⦃⇓? _ s => ⌜s.binder.graph.Lowered⌝⦄
  := by
  mvcgen [checkKeyword]

attribute [local spec] skip_lowered check_lowered checkKeyword_lowered

theorem eat_lowered (t : Token) :
  ⦃fun s => ⌜s.binder.graph.Lowered⌝⦄ eat t ⦃⇓? _ s => ⌜s.binder.graph.Lowered⌝⦄
  := by
  mvcgen [eat]

theorem eatKeyword_lowered (k : Keyword) :
  ⦃fun s => ⌜s.binder.graph.Lowered⌝⦄ eatKeyword k ⦃⇓? _ s => ⌜s.binder.graph.Lowered⌝⦄
  := by
  mvcgen [eatKeyword]

theorem expect_lowered (t : Token) :
  ⦃fun s => ⌜s.binder.graph.Lowered⌝⦄ expect t ⦃⇓? _ s => ⌜s.binder.graph.Lowered⌝⦄
  := by
  mvcgen [expect, unexpected, fail_spec] with grind

theorem expectKeyword_lowered (k : Keyword) :
  ⦃fun s => ⌜s.binder.graph.Lowered⌝⦄ expectKeyword k ⦃⇓? _ s => ⌜s.binder.graph.Lowered⌝⦄
  := by
  mvcgen [expectKeyword, unexpected, fail_spec] with grind

theorem expectIdentifier_lowered :
  ⦃fun s => ⌜s.binder.graph.Lowered⌝⦄ expectIdentifier ⦃⇓? _ s => ⌜s.binder.graph.Lowered⌝⦄
  := by
  mvcgen [expectIdentifier, unexpected, fail_spec] with grind

theorem word_lowered (expected : String) :
  ⦃fun s => ⌜s.binder.graph.Lowered⌝⦄ word expected ⦃⇓? _ s => ⌜s.binder.graph.Lowered⌝⦄
  := by
  mvcgen [word, unexpected, fail_spec] with grind

attribute [local spec] eat_lowered eatKeyword_lowered expect_lowered expectKeyword_lowered
  expectIdentifier_lowered word_lowered

theorem fieldName_lowered :
  ⦃fun s => ⌜s.binder.graph.Lowered⌝⦄ fieldName ⦃⇓? _ s => ⌜s.binder.graph.Lowered⌝⦄
  := by
  mvcgen [fieldName]

theorem expectEnd_lowered :
  ⦃fun s => ⌜s.binder.graph.Lowered⌝⦄ expectEnd ⦃⇓? _ s => ⌜s.binder.graph.Lowered⌝⦄
  := by
  mvcgen [expectEnd, unexpected, fail_spec] with grind

/-! ### The rest of the reader -/

theorem mark_lowered :
  ⦃fun s => ⌜s.binder.graph.Lowered⌝⦄ mark ⦃⇓? _ s => ⌜s.binder.graph.Lowered⌝⦄
  := by
  mvcgen [mark]

/-- Going back to a mark keeps what the binder built. -/
theorem reset_lowered (m : Mark) :
  ⦃fun s => ⌜s.binder.graph.Lowered⌝⦄ reset m ⦃⇓? _ s => ⌜s.binder.graph.Lowered⌝⦄
  := by
  mvcgen [reset]

theorem budget_lowered :
  ⦃fun s => ⌜s.binder.graph.Lowered⌝⦄ budget ⦃⇓? _ s => ⌜s.binder.graph.Lowered⌝⦄
  := by
  mvcgen [budget]

theorem current_lowered :
  ⦃fun s => ⌜s.binder.graph.Lowered⌝⦄ current ⦃⇓? _ s => ⌜s.binder.graph.Lowered⌝⦄
  := by
  mvcgen [current]

theorem enterBlock_lowered (q : QueryId) :
  ⦃fun s => ⌜s.binder.graph.Lowered⌝⦄ enterBlock q ⦃⇓? _ s => ⌜s.binder.graph.Lowered⌝⦄
  := by
  mvcgen [enterBlock]

theorem binder_lowered :
  ⦃fun s => ⌜s.binder.graph.Lowered⌝⦄
  binder
  ⦃⇓? b s => ⌜s.binder.graph.Lowered ∧ b = s.binder⌝⦄
  := by
  mvcgen [binder]

attribute [local spec] fieldName_lowered expectEnd_lowered mark_lowered reset_lowered
  budget_lowered current_lowered enterBlock_lowered binder_lowered

/-- A shallow expression taken as one value is lowered. -/
theorem scalar_lowered (e : Expr) :
  ⦃fun s => ⌜s.binder.graph.Lowered ∧ e.Shallow⌝⦄
  scalar e
  ⦃⇓? r s => ⌜s.binder.graph.Lowered ∧ r.Lowered⌝⦄
  := by
  mvcgen [scalar, orFail, fail_spec]
  with grind [Binder.lowered_toScalar]

/-- The values a shallow expression stands for are lowered. -/
theorem values_lowered (e : Expr) :
  ⦃fun s => ⌜s.binder.graph.Lowered ∧ e.Shallow⌝⦄
  values e
  ⦃⇓? vs s => ⌜s.binder.graph.Lowered ∧ ∀ v ∈ vs, v.Lowered⌝⦄
  := by
  mvcgen [values, orFail, fail_spec]
  with grind [Binder.lowered_toValues]

/-- A block changed into a lowered one keeps the graph lowered. -/
theorem modifyBlock_lowered (q : QueryId) (h : Block → Block) :
  ⦃fun s => ⌜s.binder.graph.Lowered ∧ (h (s.binder.graph.block q)).Lowered⌝⦄
  modifyBlock q h
  ⦃⇓? _ s => ⌜s.binder.graph.Lowered⌝⦄
  := by
  mvcgen [modifyBlock] with
  | vc1 hs _ => exact hs.1.modifyBlock q h hs.2

/-! ### Binding -/

/-- A step of binding that keeps the graph lowered keeps the reader's graph lowered. -/
theorem bind_lowered {α : Type} {m : Binding α}
    (hm : ⦃fun b => ⌜b.graph.Lowered⌝⦄ m ⦃⇓? _ b => ⌜b.graph.Lowered⌝⦄) :
  ⦃fun s => ⌜s.binder.graph.Lowered⌝⦄ Reading.bind m ⦃⇓? _ s => ⌜s.binder.graph.Lowered⌝⦄
  := by
  mvcgen [Reading.bind, fail, errorAt] with
  | vc1 hs _ _ hrun => exact Triple.run_eq_ok hm hs hrun

theorem bind_newQuery_lowered (parent : Option QueryId) (body : Body) :
  ⦃fun s => ⌜s.binder.graph.Lowered ∧ body.Lowered⌝⦄
  Reading.bind (Binding.newQuery parent body)
  ⦃⇓? _ s => ⌜s.binder.graph.Lowered⌝⦄
  := by
  mvcgen [Reading.bind, fail, errorAt] with
  | vc1 hs _ _ hrun => exact Triple.run_eq_ok (Binding.newQuery_lowered parent body) hs hrun

theorem bind_argument_lowered (source : ArgSource) :
  ⦃fun s => ⌜s.binder.graph.Lowered⌝⦄
  Reading.bind (Binding.argument source)
  ⦃⇓? _ s => ⌜s.binder.graph.Lowered⌝⦄
  := bind_lowered (Binding.argument_lowered source)

theorem bind_declareRoot_lowered (q : QueryId) (entity : Entity) (aliasName : String)
    (bulk : Bool) :
  ⦃fun s => ⌜s.binder.graph.Lowered⌝⦄
  Reading.bind (Binding.declareRoot q entity aliasName bulk)
  ⦃⇓? _ s => ⌜s.binder.graph.Lowered⌝⦄
  := bind_lowered (Binding.declareRoot_lowered q entity aliasName bulk)

theorem bind_navigate_lowered (q : QueryId) (parent : FromId) (field : String)
    (semantics : JoinSemantics) :
  ⦃fun s => ⌜s.binder.graph.Lowered⌝⦄
  Reading.bind (Binding.navigate q parent field semantics)
  ⦃⇓? _ s => ⌜s.binder.graph.Lowered⌝⦄
  := bind_lowered (Binding.navigate_lowered q parent field semantics)

theorem bind_generateAlias_lowered :
  ⦃fun s => ⌜s.binder.graph.Lowered⌝⦄
  Reading.bind Binding.generateAlias
  ⦃⇓? _ s => ⌜s.binder.graph.Lowered⌝⦄
  := bind_lowered Binding.generateAlias_lowered

theorem bind_declarePath_lowered (q : QueryId) (parent : FromId) (field aliasName : String)
    (semantics : JoinSemantics) :
  ⦃fun s => ⌜s.binder.graph.Lowered⌝⦄
  Reading.bind (Binding.declarePath q parent field aliasName semantics)
  ⦃⇓? _ s => ⌜s.binder.graph.Lowered⌝⦄
  := bind_lowered (Binding.declarePath_lowered q parent field aliasName semantics)

theorem bind_markFetch_lowered (f : FromId) :
  ⦃fun s => ⌜s.binder.graph.Lowered⌝⦄
  Reading.bind (Binding.markFetch f)
  ⦃⇓? _ s => ⌜s.binder.graph.Lowered⌝⦄
  := bind_lowered (Binding.markFetch_lowered f)

end Reading

/-! ### Operands -/

/-- A step of a path is a leaf: a column, an entity or a collection. -/
theorem Bound.shallow_toExpr (b : Bound) : b.toExpr.Shallow := by
  cases b <;> simp [Expr.Shallow, Bound.toExpr, Expr.children]

/-- A shallow select item that is not a path loads an entity whole or is lowered. -/
theorem Expr.resultLowered_of_shallow {e : Expr} (he : e.Shallow)
    (hentity : ∀ f, e = .entityPath f → False) (hcollection : ∀ c, e = .collectionPath c → False) :
  e.ResultLowered
  := by
  cases e with
  | loadEntity f => exact .inl ⟨f, rfl⟩
  | entityPath f => exact absurd rfl (hentity f)
  | collectionPath c => exact absurd rfl (hcollection c)
  | _ => exact .inr (Expr.lowered_iff.mpr ⟨rfl, rfl, he⟩)

namespace Grammar

theorem lowered_emptyTest {e r : Expr} {negated : Bool} (h : emptyTest e negated = .ok r) :
  r.Lowered
  := by
  unfold emptyTest at h
  split at h <;> cases h
  exact Expr.lowered_of_children rfl rfl rfl

theorem lowered_sizeCall {args : List Expr} {r : Expr} (h : sizeCall args = .ok r) : r.Lowered := by
  unfold sizeCall at h
  split at h <;> cases h
  exact Expr.lowered_of_children rfl rfl rfl

/-- `OBJECT(e)` loads an entity whole, which only a select item may hold. -/
theorem shallow_objectOf {e r : Expr} (h : objectOf e = .ok r) : r.Shallow := by
  unfold objectOf at h
  split at h <;> cases h
  simp [Expr.Shallow, Expr.children]

/-- The values `MEMBER OF` compares are identity columns, or the parameter given. -/
theorem lowered_memberValues {b : Binder} {c : CollectionRef} {item : Expr} {vs : List Expr}
    (h : memberValues b c item = .ok vs) :
  ∀ v ∈ vs, v.Lowered
  := by
  unfold memberValues at h
  split at h
  · dsimp only at h
    split at h <;> cases h
    intro v hv
    obtain ⟨k, -, rfl⟩ := List.mem_map.mp hv
    exact Expr.lowered_of_children rfl rfl rfl
  · split at h <;> cases h
    intro v hv
    rw [List.mem_singleton.mp hv]
    exact Expr.lowered_of_children rfl rfl rfl
  · cases h

/-- `LOCATE` rewritten into `CASE` and `POSITION` holds its lowered arguments only. -/
theorem lowered_locate {args : List Expr} (h : ∀ a ∈ args, a.Lowered) : (locate args).Lowered := by
  have hnth : ∀ k a, (args.drop k).head? = some a → a.Lowered :=
    fun k a ha => h a (List.mem_of_mem_drop (List.mem_of_mem_head? ha))
  have hget : ∀ k, ((args.drop k).head?.getD .null).Lowered := by
    intro k
    cases ha : (args.drop k).head? with
    | none => exact Expr.lowered_of_children rfl rfl rfl
    | some a => exact hnth k a ha
  have hneedle : (args.head?.getD .null).Lowered := hget 0
  have hhaystack : (args[1]?.getD Expr.null).Lowered := by simpa using hget 1
  unfold locate
  cases hs : (args.drop 2).head? with
  | none =>
    simp [Expr.lowered_node, Expr.isPath, Expr.isLoad, Expr.children, hneedle, hhaystack]
  | some s =>
    simp [Expr.lowered_node, Expr.isPath, Expr.isLoad, Expr.children, hneedle, hhaystack,
      hnth 2 s hs]

/-- `CONCAT` rewritten into a chain of `||` holds its lowered arguments only. -/
theorem lowered_foldl_concat :
    ∀ (rest : List Expr) (first : Expr), first.Lowered → (∀ a ∈ rest, a.Lowered) →
      (rest.foldl Expr.concat first).Lowered
  | [], _, hf, _ => hf
  | a :: rest, first, hf, hr => by
    refine lowered_foldl_concat rest (.concat first a) ?_ fun b hb => hr b (List.mem_cons_of_mem a hb)
    simp [Expr.lowered_node, Expr.isPath, Expr.isLoad, Expr.children, hf, hr a List.mem_cons_self]

/-- A call of lowered arguments. -/
theorem Expr.shallow_call (name : String) {args : List Expr} (distinct : Bool)
    (h : ∀ a ∈ args, a.Lowered) :
  (Expr.call name args distinct).Shallow
  := h

/-- `CONCAT` of lowered arguments, as the grammar takes them apart. -/
theorem shallow_foldl_concat {first : Expr} {rest : List Expr}
    (h : ∀ a ∈ first :: rest, a.Lowered) :
  (rest.foldl Expr.concat first).Shallow
  := (lowered_foldl_concat rest first (h first List.mem_cons_self)
    fun a ha => h a (List.mem_cons_of_mem _ ha)).shallow

/-! ### Clauses around expressions -/

attribute [local spec] peek_lowered next_lowered skip_lowered check_lowered checkKeyword_lowered
  eat_lowered eatKeyword_lowered expect_lowered expectKeyword_lowered expectIdentifier_lowered
  word_lowered fieldName_lowered expectEnd_lowered mark_lowered reset_lowered budget_lowered
  current_lowered enterBlock_lowered binder_lowered scalar_lowered values_lowered
  modifyBlock_lowered bind_newQuery_lowered bind_argument_lowered bind_declareRoot_lowered
  bind_navigate_lowered bind_generateAlias_lowered bind_declarePath_lowered bind_markFetch_lowered

theorem skipToFrom_lowered (fuel depth : Nat) :
  ⦃fun s => ⌜s.binder.graph.Lowered⌝⦄ skipToFrom fuel depth ⦃⇓? _ s => ⌜s.binder.graph.Lowered⌝⦄
  := by
  induction fuel generalizing depth with
  | zero => mvcgen [skipToFrom]
  | succ n ih => mvcgen [skipToFrom, ih]

theorem dottedRest_lowered (fuel : Nat) (name : String) :
  ⦃fun s => ⌜s.binder.graph.Lowered⌝⦄ dottedRest fuel name ⦃⇓? _ s => ⌜s.binder.graph.Lowered⌝⦄
  := by
  induction fuel generalizing name with
  | zero => mvcgen [dottedRest]
  | succ n ih => mvcgen [dottedRest, ih]

attribute [local spec] skipToFrom_lowered dottedRest_lowered

theorem constructor_lowered :
  ⦃fun s => ⌜s.binder.graph.Lowered⌝⦄ constructor ⦃⇓? _ s => ⌜s.binder.graph.Lowered⌝⦄
  := by
  mvcgen [constructor, fail_spec] with grind

theorem entityName_go_lowered (fuel : Nat) (name tail : String) :
  ⦃fun s => ⌜s.binder.graph.Lowered⌝⦄
  entityName.go fuel name tail
  ⦃⇓? _ s => ⌜s.binder.graph.Lowered⌝⦄
  := by
  induction fuel generalizing name tail with
  | zero =>
    mvcgen [entityName.go, fail_spec]
    grind
  | succ n ih => mvcgen [entityName.go, fail_spec, ih] with grind

attribute [local spec] constructor_lowered entityName_go_lowered

theorem entityName_lowered :
  ⦃fun s => ⌜s.binder.graph.Lowered⌝⦄ entityName ⦃⇓? _ s => ⌜s.binder.graph.Lowered⌝⦄
  := by
  mvcgen [entityName]

theorem aliasName_lowered :
  ⦃fun s => ⌜s.binder.graph.Lowered⌝⦄ aliasName? ⦃⇓? _ s => ⌜s.binder.graph.Lowered⌝⦄
  := by
  mvcgen [aliasName?]

attribute [local spec] entityName_lowered aliasName_lowered

theorem bulkTarget_lowered (q : QueryId) :
  ⦃fun s => ⌜s.binder.graph.Lowered⌝⦄ bulkTarget q ⦃⇓? _ s => ⌜s.binder.graph.Lowered⌝⦄
  := by
  mvcgen [bulkTarget]

theorem segments_lowered (fuel : Nat) (acc : List String) :
  ⦃fun s => ⌜s.binder.graph.Lowered⌝⦄ segments fuel acc ⦃⇓? _ s => ⌜s.binder.graph.Lowered⌝⦄
  := by
  induction fuel generalizing acc with
  | zero => mvcgen [segments]
  | succ n ih => mvcgen [segments, ih]

attribute [local spec] bulkTarget_lowered segments_lowered

theorem fromSource_lowered (q : QueryId) (isIn : Bool) :
  ⦃fun s => ⌜s.binder.graph.Lowered⌝⦄ fromSource q isIn ⦃⇓? _ s => ⌜s.binder.graph.Lowered⌝⦄
  := by
  mvcgen [fromSource, fail_spec] with grind

theorem declarePath_lowered (q : QueryId) (root : FromId) (segs : List String)
    (aliasName : Option String) :
  ⦃fun s => ⌜s.binder.graph.Lowered⌝⦄
  declarePath q root segs aliasName
  ⦃⇓? _ s => ⌜s.binder.graph.Lowered⌝⦄
  := by
  mvcgen [declarePath, fail_spec] invariants
  | inv1 => ⇓? _ s => ⌜s.binder.graph.Lowered⌝
  with grind

attribute [local spec] fromSource_lowered declarePath_lowered

theorem fromItem_lowered (q : QueryId) :
  ⦃fun s => ⌜s.binder.graph.Lowered⌝⦄ fromItem q ⦃⇓? _ s => ⌜s.binder.graph.Lowered⌝⦄
  := by
  mvcgen [fromItem, declareSource, fail_spec]

attribute [local spec] fromItem_lowered

theorem fromList_lowered (q : QueryId) :
  ⦃fun s => ⌜s.binder.graph.Lowered⌝⦄ fromList q ⦃⇓? _ s => ⌜s.binder.graph.Lowered⌝⦄
  := by
  mvcgen [fromList, clearJoin] invariants
  | inv1 => ⇓? _ s => ⌜s.binder.graph.Lowered⌝

/-- A path ends at a leaf, which the context lowers. -/
theorem path_lowered (start : Bound) :
  ⦃fun s => ⌜s.binder.graph.Lowered⌝⦄
  path start
  ⦃⇓? r s => ⌜s.binder.graph.Lowered ∧ r.Shallow⌝⦄
  := by
  mvcgen [path, fail_spec] invariants
  | inv1 => ⇓? _ s => ⌜s.binder.graph.Lowered⌝
  with grind [Bound.shallow_toExpr]

/-- `IS NULL` tests each value of the operand, `IS EMPTY` keeps the collection's reference. -/
theorem isTest_lowered (e : Expr) :
  ⦃fun s => ⌜s.binder.graph.Lowered ∧ e.Shallow⌝⦄
  isTest e
  ⦃⇓? r s => ⌜s.binder.graph.Lowered ∧ r.Shallow⌝⦄
  := by
  mvcgen [isTest, orFail, fail_spec, unexpected]
  with grind [Expr.lowered_conjunction, Expr.Lowered.shallow, lowered_emptyTest, Expr.lowered_iff,
    Expr.Shallow, Expr.children, Expr.isPath, Expr.isLoad]

/-- Entities compare their identity columns, or express a join with no filter; other operands
are lowered. -/
theorem compare_lowered (op : BinOp) (left right : Expr) :
  ⦃fun s => ⌜s.binder.graph.Lowered ∧ left.Shallow ∧ right.Shallow⌝⦄
  compare op left right
  ⦃⇓? r s => ⌜s.binder.graph.Lowered ∧ r.Shallow⌝⦄
  := by
  mvcgen [compare, fail_spec]
  with grind [Expr.lowered_conjunction, Expr.lowered_disjunction, Expr.Lowered.shallow,
    Expr.lowered_iff, Expr.Shallow, Expr.children, Expr.isPath, Expr.isLoad]

/-- A select item loads an entity whole, or is lowered. -/
theorem resultItem_lowered (e : Expr) (hasFrom : Bool) :
  ⦃fun s => ⌜s.binder.graph.Lowered ∧ e.Shallow⌝⦄
  resultItem e hasFrom
  ⦃⇓? r s => ⌜s.binder.graph.Lowered ∧ r.ResultLowered⌝⦄
  := by
  mvcgen [resultItem, fail_spec]
  with grind [Expr.resultLowered_of_shallow, Expr.ResultLowered, Expr.lowered_of_children,
    Expr.children, Expr.isPath, Expr.isLoad]

theorem checkArity_lowered (function : String) (count least : Nat) (most : Option Nat) :
  ⦃fun s => ⌜s.binder.graph.Lowered⌝⦄
  checkArity function count least most
  ⦃⇓? _ s => ⌜s.binder.graph.Lowered⌝⦄
  := by
  unfold checkArity
  dsimp only
  split_ifs
  · generalize Reason.wrongArgumentCount function _ = r
    mvcgen [fail_spec] with grind
  · mvcgen

/-- Arguments taken as single values one after the other are lowered. -/
theorem mapM_scalar_lowered (args : List Expr) :
  ⦃fun s => ⌜s.binder.graph.Lowered ∧ ∀ a ∈ args, a.Shallow⌝⦄
  args.mapM scalar
  ⦃⇓? rs s => ⌜s.binder.graph.Lowered ∧ ∀ r ∈ rs, r.Lowered⌝⦄
  := by
  induction args with
  | nil =>
    simp only [List.mapM_nil]
    mvcgen
    grind
  | cons a as ih =>
    simp only [List.mapM_cons]
    mvcgen [ih] with grind

attribute [local spec] fromList_lowered path_lowered isTest_lowered compare_lowered
  resultItem_lowered checkArity_lowered mapM_scalar_lowered

/-- A call lowers its arguments; `SIZE` keeps the reference of its collection only. -/
theorem buildFunction_lowered (name : String) (args : List Expr) (distinct : Bool) :
  ⦃fun s => ⌜s.binder.graph.Lowered ∧ ∀ a ∈ args, a.Shallow⌝⦄
  buildFunction name args distinct
  ⦃⇓? r s => ⌜s.binder.graph.Lowered ∧ r.Shallow⌝⦄
  := by
  mvcgen [buildFunction, orFail, fail_spec]
  all_goals
    try split
    all_goals first
      | (rename_i hs; exact ⟨hs.1, shallow_foldl_concat hs.2⟩)
      | grind [lowered_sizeCall, lowered_locate, Expr.Lowered.shallow, Expr.lowered_of_children,
          Expr.shallow_call, Expr.children, Expr.isPath, Expr.isLoad]

theorem fromClause_lowered (q : QueryId) :
  ⦃fun s => ⌜s.binder.graph.Lowered⌝⦄ fromClause q ⦃⇓? _ s => ⌜s.binder.graph.Lowered⌝⦄
  := by
  mvcgen [fromClause]

/-- A step of reading that keeps the graph lowered. -/
abbrev KeepsLowered {α : Type} (m : Reading α) : Prop :=
  ⦃fun s => ⌜s.binder.graph.Lowered⌝⦄ m ⦃⇓? _ s => ⌜s.binder.graph.Lowered⌝⦄

/-- A step of reading that keeps the graph lowered and reads a shallow expression. -/
abbrev ReadsShallow (m : Reading Expr) : Prop :=
  ⦃fun s => ⌜s.binder.graph.Lowered⌝⦄ m ⦃⇓? r s => ⌜s.binder.graph.Lowered ∧ r.Shallow⌝⦄

/-- A step of reading that keeps the graph lowered and reads a lowered expression. -/
abbrev ReadsLowered (m : Reading Expr) : Prop :=
  ⦃fun s => ⌜s.binder.graph.Lowered⌝⦄ m ⦃⇓? r s => ⌜s.binder.graph.Lowered ∧ r.Lowered⌝⦄

theorem selectList_lowered {item : Reading Expr} (hitem : ReadsShallow item) (hasFrom : Bool) :
  ⦃fun s => ⌜s.binder.graph.Lowered⌝⦄
  selectList item hasFrom
  ⦃⇓? body s => ⌜s.binder.graph.Lowered ∧ body.Lowered⌝⦄
  := by
  unfold ReadsShallow at hitem
  mvcgen [selectList, hitem, unexpected, fail_spec] invariants
  | inv1 => ⇓? r s => ⌜s.binder.graph.Lowered ∧ r.2.Lowered⌝
  | inv2 => ⇓? r s => ⌜s.binder.graph.Lowered ∧ r.2.Lowered⌝
  with grind [SelectBody.Lowered, SelectBody.lowered_start]

theorem groupByList_lowered {item : Reading Expr} (hitem : ReadsShallow item) :
  ⦃fun s => ⌜s.binder.graph.Lowered⌝⦄
  groupByList item
  ⦃⇓? es s => ⌜s.binder.graph.Lowered ∧ ∀ e ∈ es, e.Lowered⌝⦄
  := by
  unfold ReadsShallow at hitem
  mvcgen [groupByList, hitem] invariants
  | inv1 => ⇓? r s => ⌜s.binder.graph.Lowered ∧ ∀ e ∈ r.2, e.Lowered⌝
  with grind

theorem orderByList_lowered {item : Reading Expr} (hitem : ReadsShallow item) :
  ⦃fun s => ⌜s.binder.graph.Lowered⌝⦄
  orderByList item
  ⦃⇓? ts s => ⌜s.binder.graph.Lowered ∧ ∀ t ∈ ts, t.expr.Lowered⌝⦄
  := by
  unfold ReadsShallow at hitem
  mvcgen [orderByList, hitem] invariants
  | inv1 => ⇓? r s => ⌜s.binder.graph.Lowered ∧ ∀ t ∈ r.2, t.expr.Lowered⌝
  with grind

/-- A select list left out selects the block's first item, loaded whole. -/
theorem withFetches_lowered (q : QueryId) (body : SelectBody) (fetches : List FetchJoin) :
  ⦃fun s => ⌜s.binder.graph.Lowered ∧ body.Lowered⌝⦄
  withFetches q body fetches
  ⦃⇓? body s => ⌜s.binder.graph.Lowered ∧ body.Lowered⌝⦄
  := by
  mvcgen [withFetches, fail_spec, binder] with grind [SelectBody.Lowered, Expr.ResultLowered]

theorem clauses_lowered {item cond : Reading Expr} (hitem : ReadsShallow item)
    (hcond : ReadsLowered cond) (body : SelectBody) :
  ⦃fun s => ⌜s.binder.graph.Lowered ∧ body.Lowered⌝⦄
  clauses item cond body
  ⦃⇓? body s => ⌜s.binder.graph.Lowered ∧ body.Lowered⌝⦄
  := by
  have hgroup := groupByList_lowered hitem
  have horder := orderByList_lowered hitem
  unfold ReadsLowered at hcond
  mvcgen [clauses, hcond, hgroup, fail_spec, horder] with grind [SelectBody.Lowered]

attribute [local spec] buildFunction_lowered fromClause_lowered withFetches_lowered

/-! ### The functions of the grammar -/

/-- What the functions of the grammar keep with `n` levels of nesting left: the graph stays
lowered, a block's body and a condition read are lowered, and every other expression read is
shallow, for its context to lower. -/
structure Lowers (n : Nat) : Prop where
  select : ∀ inner, KeepsLowered (select n inner)
  selectBody : ∀ q inner,
    ⦃fun s => ⌜s.binder.graph.Lowered⌝⦄
    selectBody n q inner
    ⦃⇓? body s => ⌜s.binder.graph.Lowered ∧ body.Lowered⌝⦄
  condition : ReadsLowered (condition n)
  expr : ReadsShallow (expr n)
  disjunction : ReadsShallow (disjunction n)
  conjunction : ReadsShallow (conjunction n)
  negation : ReadsShallow (negation n)
  comparison : ReadsShallow (comparison n)
  inPredicate : ∀ left negated,
    ⦃fun s => ⌜s.binder.graph.Lowered ∧ left.Shallow⌝⦄
    inPredicate n left negated
    ⦃⇓? r s => ⌜s.binder.graph.Lowered ∧ r.Shallow⌝⦄
  memberOf : ∀ item negated, ReadsShallow (memberOf n item negated)
  concatenation : ReadsShallow (concatenation n)
  sum : ReadsShallow (sum n)
  product : ReadsShallow (product n)
  term : ReadsShallow (term n)
  simpleTerm : ReadsShallow (simpleTerm n)
  identifierTerm : ∀ name, ReadsShallow (identifierTerm n name)
  subqueryTerm : ∀ keyword, ReadsShallow (subqueryTerm n keyword)
  function : ∀ name, ReadsShallow (function n name)
  trimCall : ReadsShallow (trimCall n)

/-- A path followed on its own binder, as a name of the block's first item is, keeps the graph
lowered. -/
theorem navigate_run_lowered {q : QueryId} {parent : FromId} {field : String}
    {semantics : JoinSemantics} {b b' : Binder} {r : Bound} (hb : b.graph.Lowered)
    (h : Binding.navigate q parent field semantics b = .ok (r, b')) :
  b'.graph.Lowered
  := Triple.run_eq_ok (Binding.navigate_lowered q parent field semantics) hb h

section Steps

variable {n : Nat} (ih : Lowers n)
include ih

theorem condition_lowers : ReadsLowered (condition (n + 1)) := by
  have hexpr := ih.expr
  unfold ReadsShallow at hexpr
  mvcgen [condition, hexpr]

theorem expr_lowers : ReadsShallow (expr (n + 1)) := by
  have hselect := ih.select
  have hdisj := ih.disjunction
  unfold KeepsLowered at hselect
  unfold ReadsShallow at hdisj
  mvcgen [expr, hselect, hdisj] with grind [Expr.Shallow, Expr.children]

theorem disjunction_lowers : ReadsShallow (disjunction (n + 1)) := by
  have hconj := ih.conjunction
  unfold ReadsShallow at hconj
  mvcgen [disjunction, hconj] invariants
  | inv1 => ⇓? r s => ⌜s.binder.graph.Lowered ∧ ∀ p ∈ r.2, p.Lowered⌝
  with grind [Expr.lowered_disjunction, Expr.Lowered.shallow]

theorem conjunction_lowers : ReadsShallow (conjunction (n + 1)) := by
  have hneg := ih.negation
  unfold ReadsShallow at hneg
  mvcgen [conjunction, hneg] invariants
  | inv1 => ⇓? r s => ⌜s.binder.graph.Lowered ∧ ∀ p ∈ r.2, p.Lowered⌝
  with grind [Expr.lowered_conjunction, Expr.Lowered.shallow]

theorem negation_lowers : ReadsShallow (negation (n + 1)) := by
  have hneg := ih.negation
  have hcmp := ih.comparison
  unfold ReadsShallow at hneg hcmp
  mvcgen [negation, hneg, hcmp] with grind [Expr.Shallow, Expr.children]

theorem comparison_lowers : ReadsShallow (comparison (n + 1)) := by
  have hconcat := ih.concatenation
  have hin := ih.inPredicate
  have hmember := ih.memberOf
  unfold ReadsShallow at hconcat hmember
  mvcgen [comparison, hconcat, hin, hmember, fail_spec] with grind [Expr.Shallow, Expr.children]

theorem inPredicate_lowers : ∀ left negated,
    ⦃fun s => ⌜s.binder.graph.Lowered ∧ left.Shallow⌝⦄
    inPredicate (n + 1) left negated
    ⦃⇓? r s => ⌜s.binder.graph.Lowered ∧ r.Shallow⌝⦄ := by
  have hselect := ih.select
  have hexpr := ih.expr
  unfold KeepsLowered at hselect
  unfold ReadsShallow at hexpr
  intro left negated
  mvcgen [inPredicate, hselect, fail_spec, hexpr] invariants
  | inv1 => ⇓? r s => ⌜s.binder.graph.Lowered ∧ left.Shallow ∧ ∀ v ∈ r.2, v.Lowered⌝
  with grind [Expr.Shallow, Expr.children, Expr.lowered_of_children, Expr.isPath, Expr.isLoad]

theorem memberOf_lowers : ∀ item negated, ReadsShallow (memberOf (n + 1) item negated) := by
  have hconcat := ih.concatenation
  unfold ReadsShallow at hconcat ⊢
  intro item negated
  mvcgen [memberOf, hconcat, fail_spec, orFail, binder]
  with grind [lowered_memberValues, Expr.Shallow, Expr.children]

theorem concatenation_lowers : ReadsShallow (concatenation (n + 1)) := by
  have hsum := ih.sum
  unfold ReadsShallow at hsum
  mvcgen [concatenation, hsum] invariants
  | inv1 => ⇓? r s => ⌜s.binder.graph.Lowered ∧ r.2.Shallow⌝
  with grind [Expr.Shallow, Expr.children]

theorem sum_lowers : ReadsShallow (sum (n + 1)) := by
  have hproduct := ih.product
  unfold ReadsShallow at hproduct
  mvcgen [sum, hproduct] invariants
  | inv1 => ⇓? r s => ⌜s.binder.graph.Lowered ∧ r.2.Shallow⌝
  with grind [Expr.Shallow, Expr.children]

theorem product_lowers : ReadsShallow (product (n + 1)) := by
  have hterm := ih.term
  unfold ReadsShallow at hterm
  mvcgen [product, hterm] invariants
  | inv1 => ⇓? r s => ⌜s.binder.graph.Lowered ∧ r.2.Shallow⌝
  with grind [Expr.Shallow, Expr.children]

theorem term_lowers : ReadsShallow (term (n + 1)) := by
  have hterm := ih.term
  have hsimple := ih.simpleTerm
  unfold ReadsShallow at hterm hsimple
  mvcgen [term, hsimple, hterm] with grind [Expr.Shallow, Expr.children]

theorem simpleTerm_lowers : ReadsShallow (simpleTerm (n + 1)) := by
  have hid := ih.identifierTerm
  have hfun := ih.function
  have hexpr := ih.expr
  unfold ReadsShallow at hid hfun hexpr
  mvcgen [simpleTerm, hid, hfun, unexpected, fail_spec, hexpr]
  with grind [Expr.Shallow, Expr.children]

theorem identifierTerm_lowers : ∀ name, ReadsShallow (identifierTerm (n + 1) name) := by
  have hsub := ih.subqueryTerm
  have hfun := ih.function
  unfold ReadsShallow at hsub hfun ⊢
  intro name
  mvcgen [identifierTerm, hsub, hfun, current, binder, fail_spec] with grind [navigate_run_lowered]

theorem subqueryTerm_lowers : ∀ keyword, ReadsShallow (subqueryTerm (n + 1) keyword) := by
  have hselect := ih.select
  unfold KeepsLowered at hselect
  unfold ReadsShallow
  intro keyword
  mvcgen [subqueryTerm, fail_spec, hselect] with grind [Expr.Shallow, Expr.children]

theorem function_lowers : ∀ name, ReadsShallow (function (n + 1) name) := by
  have hexpr := ih.expr
  have htrim := ih.trimCall
  unfold ReadsShallow at hexpr htrim ⊢
  intro name
  mvcgen [function, hexpr, orFail, fail_spec, htrim] invariants
  | inv1 => ⇓? r s => ⌜s.binder.graph.Lowered ∧ ∀ a ∈ r.2, a.Shallow⌝
  with grind [shallow_objectOf]

theorem trimCall_lowers : ReadsShallow (trimCall (n + 1)) := by
  have hexpr := ih.expr
  unfold ReadsShallow at hexpr
  mvcgen [trimCall, hexpr, unexpected, fail_spec] with grind [Expr.Shallow, Expr.children]

theorem select_lowers : ∀ inner, KeepsLowered (select (n + 1) inner) := by
  have hbody := ih.selectBody
  unfold KeepsLowered
  intro inner
  mvcgen [select, enterBlock, hbody]
  with grind [Body.Lowered, SelectBody.lowered_start, Block.Lowered.withBody,
    Graph.Lowered.blocks]

theorem selectBody_lowers : ∀ q inner,
    ⦃fun s => ⌜s.binder.graph.Lowered⌝⦄
    selectBody (n + 1) q inner
    ⦃⇓? body s => ⌜s.binder.graph.Lowered ∧ body.Lowered⌝⦄ := by
  have hlist := selectList_lowered ih.expr
  have hclauses := clauses_lowered ih.expr ih.condition
  intro q inner
  mvcgen [selectBody, hlist, hclauses] with grind

/-- One more level of nesting keeps everything the level below keeps. -/
theorem Lowers.succ : Lowers (n + 1) :=
  ⟨select_lowers ih, selectBody_lowers ih, condition_lowers ih, expr_lowers ih,
    disjunction_lowers ih, conjunction_lowers ih, negation_lowers ih, comparison_lowers ih,
    inPredicate_lowers ih, memberOf_lowers ih, concatenation_lowers ih, sum_lowers ih,
    product_lowers ih, term_lowers ih, simpleTerm_lowers ih, identifierTerm_lowers ih,
    subqueryTerm_lowers ih, function_lowers ih, trimCall_lowers ih⟩

end Steps

/-- With no nesting left, every function of the grammar fails at once. -/
theorem Lowers.zero : Lowers 0 where
  select _ := tooDeep_spec _ _
  selectBody _ _ := tooDeep_spec _ _
  condition := tooDeep_spec _ _
  expr := tooDeep_spec _ _
  disjunction := tooDeep_spec _ _
  conjunction := tooDeep_spec _ _
  negation := tooDeep_spec _ _
  comparison := tooDeep_spec _ _
  inPredicate _ _ := tooDeep_spec _ _
  memberOf _ _ := tooDeep_spec _ _
  concatenation := tooDeep_spec _ _
  sum := tooDeep_spec _ _
  product := tooDeep_spec _ _
  term := tooDeep_spec _ _
  simpleTerm := tooDeep_spec _ _
  identifierTerm _ := tooDeep_spec _ _
  subqueryTerm _ := tooDeep_spec _ _
  function _ := tooDeep_spec _ _
  trimCall := tooDeep_spec _ _

/-- The functions of the grammar keep the graph lowered, whatever nesting is left. -/
theorem lowers : ∀ n, Lowers n
  | 0 => Lowers.zero
  | n + 1 => (lowers n).succ

/-! ### Statements -/

theorem update_lowered (fuel : Nat) : KeepsLowered (update fuel) := by
  have hexpr := (lowers fuel).expr
  have hcond := (lowers fuel).condition
  unfold ReadsShallow at hexpr
  unfold ReadsLowered at hcond
  mvcgen [update, enterBlock, binder, fail_spec, hexpr, hcond] invariants
  | inv1 => ⇓? r s => ⌜s.binder.graph.Lowered ∧ ∀ a ∈ r.2, a.value.Lowered⌝
  with grind [Body.Lowered, Block.Lowered.withBody, Graph.Lowered.blocks]

theorem delete_lowered (fuel : Nat) : KeepsLowered (delete fuel) := by
  have hcond := (lowers fuel).condition
  unfold ReadsLowered at hcond
  mvcgen [delete, enterBlock, hcond]
  with grind [Body.Lowered, Block.Lowered.withBody, Graph.Lowered.blocks]

theorem statement_lowered (fuel : Nat) : KeepsLowered (statement fuel) := by
  have hupdate := update_lowered fuel
  have hdelete := delete_lowered fuel
  have hselect := (lowers fuel).select false
  unfold KeepsLowered at hupdate hdelete hselect
  mvcgen [statement, hupdate, hdelete, hselect]

end Grammar

namespace ParsedQuery

/-- A statement read from any text holds a lowered graph: no expression of a block holds a path,
an entity is loaded whole only as a select item, and the filter of a join is lowered. -/
theorem lowered_read {schema : Schema} {aliasPrefix text : String} {p : ParsedQuery}
    (h : read schema aliasPrefix text = .ok p) :
  p.graph.Lowered
  := by
  unfold read at h
  simp only [Bind.bind, Except.bind] at h
  split at h
  · cases h
  · rename_i r hrun
    cases h
    exact Triple.run_eq_ok (Grammar.statement_lowered _) Graph.Lowered.empty hrun

end ParsedQuery

end EntityQuery
