import EntityQuery.Proofs.Graph.WellFormed

/-!
# Moving the joins of a bulk statement

An UPDATE or DELETE writes no join, so the optimizer moves the items after the first of such a
block into a new block under it, which the old one tests with `EXISTS (SELECT 1 ...)`
(`Graph.correlateBulkJoins`). What the pass gives is said once, by
`Graph.correlateBulkJoins_eq_ok`: the graph itself, or, past its checks, the graph
`Graph.correlated`. Every invariant of the optimizer is read off that graph:

* its blocks are the old ones, the old block `Graph.keptBlock` with its first item, the filters
  and conditions that read no other item and the `EXISTS`, and the new block `Graph.bulkBlock`
  with the other items, filters and conditions (`Graph.block_correlated`);
* its items are the old ones, those moved owned by the new block (`Graph.item_correlated`);
* every expression of the two changed blocks is one of the old block's, a conjunction of its
  conditions, the literal the new block selects or the `EXISTS`, so a property that
  conjunctions keep passes from the old block to both (`Graph.expressions_correlated`).
-/

namespace EntityQuery

/-- The expressions of a body with another WHERE condition are its own and that condition. -/
theorem Body.mem_expressions_withWhere {b : Body} {w : Option Expr} {e : Expr}
    (he : e ∈ (b.withWhere w).expressions) :
  e ∈ b.expressions ∨ w = some e
  := by
  cases b <;> simp [Body.withWhere, Body.expressions] at he ⊢ <;> grind

namespace Graph

variable {g : Graph} {q : QueryId}

/-- The conditions of a block's WHERE clause are among its expressions. -/
theorem mem_expressions_of_whereClause {w : Expr} (hw : (g.block q).body.whereClause = some w) :
  w ∈ (g.block q).expressions
  := by
  simp only [Block.expressions, List.mem_append]
  right
  cases hb : (g.block q).body <;> simp_all [Body.whereClause, Body.expressions]

/-! ### Giving items to another block -/

/-- Changing items one by one leaves the blocks alone. -/
theorem blocks_foldl_modifyItem (h : FromItem → FromItem) (l : List FromId) (g : Graph) :
  (l.foldl (fun g f => g.modifyItem f h) g).blocks = g.blocks
  := by
  induction l generalizing g with
  | nil => rfl
  | cons f l ih => rw [List.foldl_cons, ih, blocks_modifyItem]

theorem block_foldl_modifyItem (h : FromItem → FromItem) (l : List FromId) (g : Graph)
    (q : QueryId) :
  (l.foldl (fun g f => g.modifyItem f h) g).block q = g.block q
  := by
  simp only [block, blocks_foldl_modifyItem]

/-- Changing items one by one leaves the number of items alone. -/
theorem size_items_foldl_modifyItem (h : FromItem → FromItem) (l : List FromId) (g : Graph) :
  (l.foldl (fun g f => g.modifyItem f h) g).items.size = g.items.size
  := by
  induction l generalizing g with
  | nil => rfl
  | cons f l ih => rw [List.foldl_cons, ih, size_items_modifyItem]

/-- Changing items one by one leaves the parameters alone. -/
theorem arguments_foldl_modifyItem (h : FromItem → FromItem) (l : List FromId) (g : Graph) :
  (l.foldl (fun g f => g.modifyItem f h) g).arguments = g.arguments
  := by
  induction l generalizing g with
  | nil => rfl
  | cons f l ih => rw [List.foldl_cons, ih, arguments_modifyItem]

/-- Giving the items of a list to block `o`, one by one, gives each of them once. -/
theorem item_foldl_reown (o : QueryId) (l : List FromId) (g : Graph) (x : FromId) :
  (l.foldl (fun g f => g.modifyItem f fun i => { i with owner := o }) g).item x =
    if x ∈ l ∧ x.idx < g.items.size then { g.item x with owner := o } else g.item x
  := by
  induction l generalizing g with
  | nil => simp
  | cons f l ih =>
    rw [List.foldl_cons, ih, size_items_modifyItem, item_modifyItem]
    by_cases hxf : x = f
    · subst hxf
      by_cases hx : x.idx < g.items.size <;> simp [hx]
    · have hidx : x.idx ≠ f.idx := fun h => hxf (FromId.ext_idx h)
      simp [hxf, hidx]

/-! ### The correlated graph -/

/-- The items of block `q` after its first: those an UPDATE or DELETE joins. -/
def bulkJoined (g : Graph) (q : QueryId) : List FromId := (g.block q).fromList.drop 1

/-- Whether an expression reads one of the items block `q` joins. -/
def readsBulkJoined (g : Graph) (q : QueryId) (e : Expr) : Bool :=
  (g.bulkJoined q).any (g.uses · e)

/-- The conjuncts of the WHERE condition of block `q`. -/
def whereConjuncts (g : Graph) (q : QueryId) : List Expr :=
  ((g.block q).body.whereClause.map Expr.conjuncts).getD []

/-- The block the joined items of block `q` move to: a SELECT of the literal 1 under `q`, with
the filters and conditions that read them. -/
def bulkBlock (g : Graph) (q : QueryId) : Block :=
  { id := ⟨g.blocks.size⟩, parent := some q, fromList := g.bulkJoined q,
    filters := ((g.block q).filters.partition (g.readsBulkJoined q)).1,
    body := .select
      { hasFrom := true, results := [.literal (.integer 1)],
        whereClause := Expr.andAll ((g.whereConjuncts q).partition (g.readsBulkJoined q)).1 } }

/-- What block `q` keeps: its first item, the filters and conditions that read no joined item,
and the `EXISTS` of the new block. -/
def keptBlock (g : Graph) (q : QueryId) : Block :=
  { g.block q with
    fromList := (g.block q).fromList.take 1,
    filters := ((g.block q).filters.partition (g.readsBulkJoined q)).2,
    body := (g.block q).body.withWhere (Expr.andAll
      (((g.whereConjuncts q).partition (g.readsBulkJoined q)).2 ++
        [Expr.exists ⟨g.blocks.size⟩])) }

/-- The graph with the joins of block `q` moved into a new block, built as the pass builds it. -/
def correlated (g : Graph) (q : QueryId) : Graph :=
  ((g.bulkJoined q).foldl
    (fun (G : Graph) f => G.modifyItem f fun i => { i with owner := ⟨g.blocks.size⟩ })
    { g with blocks := g.blocks.push (g.bulkBlock q) }).modifyBlock q fun b =>
    { b with
      fromList := b.fromList.take 1,
      filters := ((g.block q).filters.partition (g.readsBulkJoined q)).2,
      body := b.body.withWhere (Expr.andAll
        (((g.whereConjuncts q).partition (g.readsBulkJoined q)).2 ++
          [Expr.exists ⟨g.blocks.size⟩])) }

/-- A check that fails, or else returns `x`, returns `x` when it succeeds, and its condition
does not hold. -/
theorem ok_of_check {c : Prop} [Decidable c] {t : Except Reason Graph} {x y : Graph}
    (ht : ∀ z, t ≠ .ok z) (h : (if c then t else pure x) = .ok y) :
  ¬c ∧ y = x
  := by
  split at h
  · exact absurd h (ht y)
  · rename_i hc
    simp only [pure, Except.pure, Except.ok.injEq] at h
    exact ⟨hc, h.symm⟩

/-- Moving the joins of block `q` gives the graph itself, or, when `q` is a block of the graph
with items after its first, all joined with inner semantics, the correlated graph. -/
theorem correlateBulkJoins_eq_ok {g' : Graph} (h : g.correlateBulkJoins q = .ok g') :
  g' = g ∨ 1 < (g.block q).fromList.length ∧ q.idx < g.blocks.size ∧
    (∀ x ∈ g.bulkJoined q, (g.item x).semantics = .inner) ∧ g' = g.correlated q
  := by
  unfold correlateBulkJoins at h
  simp only at h
  generalize hX : Graph.modifyBlock
    (List.foldl _ (_ : Graph) (List.drop 1 (g.block q).fromList) : Graph) q _ = X at h
  split at h
  · simp only [pure, Except.pure, Except.ok.injEq] at h
    exact .inl h.symm
  rename_i hbulk
  obtain ⟨hcheck, rfl⟩ := ok_of_check (fun y hy => by cases hy) h
  have hlen : 1 < (g.block q).fromList.length := by
    simp only [Bool.or_eq_true, decide_eq_true_eq, not_or] at hbulk
    omega
  refine .inr ⟨hlen, ?_, ?_, hX ▸ rfl⟩
  · apply Nat.lt_of_not_le
    intro hout
    rw [block_eq_default hout] at hlen
    exact absurd hlen (by decide)
  · simp only [Bool.or_eq_true, List.any_eq_true, bne_iff_ne, ne_eq, not_or, not_exists,
      not_and, Decidable.not_not] at hcheck
    exact hcheck.1

@[simp]
theorem size_items_correlated : (g.correlated q).items.size = g.items.size := by
  delta correlated
  rw [items_modifyBlock, size_items_foldl_modifyItem]

@[simp]
theorem arguments_correlated : (g.correlated q).arguments = g.arguments := by
  delta correlated
  rw [arguments_modifyBlock, arguments_foldl_modifyItem]

@[simp]
theorem size_blocks_correlated : (g.correlated q).blocks.size = g.blocks.size + 1 := by
  delta correlated
  rw [size_blocks_modifyBlock, blocks_foldl_modifyItem, Array.size_push]

/-- The items moved are owned by the new block; the others are as they were. -/
theorem item_correlated (x : FromId) :
  (g.correlated q).item x =
    if x ∈ g.bulkJoined q ∧ x.idx < g.items.size then { g.item x with owner := ⟨g.blocks.size⟩ }
    else g.item x
  := by
  delta correlated
  rw [item_modifyBlock, item_foldl_reown]
  rfl

@[simp]
theorem id_item_correlated (x : FromId) : ((g.correlated q).item x).id = (g.item x).id := by
  rw [item_correlated]
  split <;> rfl

@[simp]
theorem join_item_correlated (x : FromId) : ((g.correlated q).item x).join = (g.item x).join := by
  rw [item_correlated]
  split <;> rfl

theorem owner_item_correlated (x : FromId) :
  ((g.correlated q).item x).owner =
    if x ∈ g.bulkJoined q ∧ x.idx < g.items.size then ⟨g.blocks.size⟩ else (g.item x).owner
  := by
  rw [item_correlated]
  split <;> rfl

/-- The blocks of the correlated graph: the kept block, the new block and the others. -/
theorem block_correlated (hq : q.idx < g.blocks.size) (b : QueryId) :
  (g.correlated q).block b =
    if b = q then g.keptBlock q else if b.idx = g.blocks.size then g.bulkBlock q else g.block b
  := by
  have hne : q.idx ≠ g.blocks.size := Nat.ne_of_lt hq
  delta correlated
  simp only [block_modifyBlock, blocks_foldl_modifyItem, block_foldl_modifyItem,
    block_push, Array.size_push, if_neg hne]
  by_cases hbq : b = q
  · subst hbq
    rw [if_pos ⟨rfl, by omega⟩, if_pos rfl]
    rfl
  · rw [if_neg (fun h => hbq (QueryId.ext_idx h.1)), if_neg hbq]

/-- The first item of a block that lists each item once is not among those moved. -/
theorem not_mem_bulkJoined {x : FromId} (hnd : (g.block q).fromList.Nodup)
    (hx : x ∈ (g.block q).fromList.take 1) :
  x ∉ g.bulkJoined q
  := by
  rw [← List.take_append_drop 1 (g.block q).fromList] at hnd
  exact List.disjoint_of_nodup_append hnd hx

/-- A property of expressions that the conjuncts of an expression and the conjunction of a list
keep holds of every expression of the two changed blocks, when it holds of the old block's
expressions, of the literal the new block selects and of its `EXISTS`. -/
theorem expressions_correlated (P : Expr → Prop)
    (hconj : ∀ w, P w → ∀ c ∈ w.conjuncts, P c)
    (hall : ∀ l, (∀ c ∈ l, P c) → ∀ e ∈ Expr.andAll l, P e)
    (hold : ∀ e ∈ (g.block q).expressions, P e)
    (hlit : P (.literal (.integer 1))) (hexists : P (.exists ⟨g.blocks.size⟩)) :
  (∀ e ∈ (g.keptBlock q).expressions, P e) ∧ ∀ e ∈ (g.bulkBlock q).expressions, P e
  := by
  have hfilters : ∀ e ∈ (g.block q).filters, P e :=
    fun e he => hold e (List.mem_append_left _ he)
  have hconds : ∀ e ∈ g.whereConjuncts q, P e := by
    intro e he
    cases hw : (g.block q).body.whereClause with
    | none => simp [whereConjuncts, hw] at he
    | some w =>
      simp only [whereConjuncts, hw, Option.map_some, Option.getD_some] at he
      exact hconj w (hold w (mem_expressions_of_whereClause hw)) e he
  constructor
  · intro e he
    simp only [keptBlock, Block.expressions, List.mem_append, List.partition_eq_filter_filter,
      List.mem_filter] at he
    rcases he with he | he
    · exact hfilters e he.1
    · rcases Body.mem_expressions_withWhere he with he | he
      · exact hold e (List.mem_append_right _ he)
      · refine hall _ (fun c hc => ?_) e he
        simp only [List.mem_append, List.mem_filter, List.mem_singleton] at hc
        rcases hc with hc | rfl
        · exact hconds c hc.1
        · exact hexists
  · intro e he
    simp only [bulkBlock, Block.expressions, Body.expressions, List.mem_append,
      List.mem_singleton, List.partition_eq_filter_filter, List.mem_filter, Option.mem_toList,
      List.map_nil, Option.toList_none, List.append_nil] at he
    rcases he with he | (rfl | he)
    · exact hfilters e he.1
    · exact hlit
    · exact hall _ (fun c hc => hconds c (List.mem_filter.mp hc).1) e he

end Graph

end EntityQuery
