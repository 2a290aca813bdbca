import Mathlib
import EntityQuery.Proofs.Query.Lowering
import EntityQuery.Proofs.Graph.Optimized

/-!
# Optimizing writes every join as its predicate

A condition `path = alias` is read as a join node (`Expr.join`), and optimizing a block either
makes it the join of its target or writes it as the equalities of its columns
(`Expr.replaceJoins`). Every other pass moves, rewrites or drops expressions the graph holds,
or adds tests and conditions with no join in them, so no join is left in the optimized graph.

The optimizer takes the blocks one after another, the last made first, so the invariant of
its run is indexed by the blocks already done: those numbered `i` and above hold no join, nor
does the filter of any join (`Graph.JoinFreeFrom`). Absorbing the joins of block `i` brings the
index down to `i`, and the other passes keep it. Reading gives join filters with no join in
them, and numbers its blocks below their count, so `ParsedQuery.read_lowered_optimize_joinFree`
concludes that a statement read from any text is lowered, and optimized holds no join.
-/

namespace EntityQuery

namespace Expr

variable {p : Expr → Prop}

/-! ### Induction through the children of an expression -/

/-- A child is smaller than the expression it is a child of. -/
theorem sizeOf_lt_of_mem_children {e c : Expr} (h : c ∈ e.children) : sizeOf c < sizeOf e := by
  cases e with
  | trim spec character source =>
    cases character with
    | none =>
      simp only [children, List.mem_singleton] at h
      subst h
      simp
    | some x =>
      simp only [children, List.mem_cons, List.not_mem_nil, or_false] at h
      rcases h with rfl | rfl
      · simp
        omega
      · simp
  | join link extra =>
    cases extra with
    | none => simp [children] at h
    | some x =>
      simp only [children, List.mem_singleton] at h
      subst h
      simp
      omega
  | inList e vs negated =>
    simp only [children, List.mem_cons] at h
    rcases h with rfl | h
    · simp
      omega
    · have := List.sizeOf_lt_of_mem h
      simp
      omega
  | memberOf es c negated | call name es distinct | conj es | disj es =>
    simp only [children] at h
    have := List.sizeOf_lt_of_mem h
    simp
    omega
  | _ =>
    simp only [children, List.mem_cons, List.not_mem_nil, or_false] at h <;>
      rcases h with rfl | rfl | rfl <;> simp <;> omega

/-- Induction over expressions through their children: a property that holds of an expression
whenever it holds of its children holds of every expression. -/
theorem induction_children {P : Expr → Prop} (step : ∀ e, (∀ c ∈ e.children, P c) → P e)
    (e : Expr) :
  P e
  := step e fun c _hc => induction_children step c
termination_by sizeOf e
decreasing_by exact sizeOf_lt_of_mem_children _hc

/-! ### Rewriting columns -/

theorem mapColumnsAll_eq_map (g : ColumnRef → ColumnRef) (es : List Expr) :
  mapColumnsAll g es = es.map (mapColumns g)
  := by
  induction es with
  | nil => rfl
  | cons e es ih => simp [mapColumnsAll, ih]

/-- Rewriting the columns of an expression rewrites those of its children. -/
theorem children_mapColumns (g : ColumnRef → ColumnRef) (e : Expr) :
  (e.mapColumns g).children = e.children.map (mapColumns g)
  := by
  cases e with
  | trim spec character source => cases character <;> simp [mapColumns, children]
  | join link extra => cases extra <;> simp [mapColumns, children]
  | _ => simp [mapColumns, children, mapColumnsAll_eq_map]

theorem isJoin_mapColumns (g : ColumnRef → ColumnRef) (e : Expr) :
  (e.mapColumns g).isJoin = e.isJoin
  := by
  cases e with
  | trim _ character _ => cases character <;> rfl
  | join _ extra => cases extra <;> rfl
  | _ => rfl

/-- Rewriting columns keeps a property of every node when it keeps the property at each node. -/
theorem Every.mapColumns {g : ColumnRef → ColumnRef} (hp : ∀ e, p e → p (e.mapColumns g))
    {e : Expr} (h : e.Every p) :
  (e.mapColumns g).Every p
  := by
  induction h with
  | node he _ ih =>
    refine .node (hp _ he) ?_
    rw [children_mapColumns]
    intro c' hc'
    obtain ⟨c, hc, rfl⟩ := List.mem_map.mp hc'
    exact ih c hc

theorem JoinFree.mapColumns {g : ColumnRef → ColumnRef} {e : Expr} (h : e.JoinFree) :
  (e.mapColumns g).JoinFree
  := Every.mapColumns (fun x hx => (isJoin_mapColumns g x).trans hx) h

/-! ### Writing joins as predicates -/

theorem replaceJoinsAll_eq_map (es : List Expr) : replaceJoinsAll es = es.map replaceJoins := by
  induction es with
  | nil => rfl
  | cons e es ih => simp [replaceJoinsAll, ih]

/-- The predicate of a join, the equalities of its columns and its filter, holds no join when
the filter holds none. -/
theorem joinFree_linkPredicate (l : Link) {extra : Option Expr} (h : ∀ x ∈ extra, x.JoinFree) :
  (l.predicate extra).JoinFree
  := by
  unfold Link.predicate
  apply every_conjunction fun _ => rfl
  intro x hx
  simp only [List.mem_append, List.mem_map, Option.mem_toList] at hx
  rcases hx with ⟨⟨p, t⟩, -, rfl⟩ | hx
  · refine .node rfl ?_
    simp only [children, col, List.mem_cons, List.not_mem_nil, or_false]
    rintro c (rfl | rfl) <;> exact .node rfl (by simp [children])
  · exact h x hx

/-- Away from a join, writing joins as predicates keeps the node and rewrites its children. -/
theorem children_replaceJoins {e : Expr} (h : e.isJoin = false) :
  e.replaceJoins.children = e.children.map replaceJoins
  := by
  cases e with
  | trim spec character source => cases character <;> simp [replaceJoins, children]
  | join => cases h
  | _ => simp [replaceJoins, children, replaceJoinsAll_eq_map]

theorem isJoin_replaceJoins {e : Expr} (h : e.isJoin = false) : e.replaceJoins.isJoin = false := by
  cases e with
  | trim _ character _ => cases character <;> rfl
  | join => cases h
  | _ => rfl

/-- Writing the joins of an expression as predicates leaves no join in it. -/
theorem joinFree_replaceJoins : ∀ e : Expr, e.replaceJoins.JoinFree :=
  induction_children fun e ih => by
    cases hj : e.isJoin
    · refine .node (isJoin_replaceJoins hj) ?_
      rw [children_replaceJoins hj]
      intro c' hc'
      obtain ⟨c, hc, rfl⟩ := List.mem_map.mp hc'
      exact ih c hc
    · obtain ⟨l, extra, rfl⟩ : ∃ l extra, e = .join l extra := by
        cases e <;> simp_all [isJoin]
      cases extra with
      | none => exact joinFree_linkPredicate l (by simp)
      | some x =>
        refine joinFree_linkPredicate l fun y hy => ?_
        cases hy
        exact ih x (by simp [children])

/-! ### Conjunctions -/

theorem conjunctsAll_eq_flatMap (es : List Expr) : conjunctsAll es = es.flatMap conjuncts := by
  induction es with
  | nil => rfl
  | cons e es ih => simp [conjunctsAll, ih]

/-- The parts of a conjunction where `p` holds everywhere have `p` everywhere. -/
theorem Every.conjuncts {e : Expr} (h : e.Every p) : ∀ c ∈ e.conjuncts, c.Every p := by
  induction h with
  | @node e he hc ih =>
    cases e with
    | conj parts =>
      intro c hc'
      rw [Expr.conjuncts, conjunctsAll_eq_flatMap] at hc'
      obtain ⟨a, ha, hca⟩ := List.mem_flatMap.mp hc'
      exact ih a ha c hca
    | _ =>
      intro c hc'
      simp only [Expr.conjuncts, List.mem_singleton] at hc'
      subst hc'
      exact .node he hc

/-- The conjunction of parts where `p` holds everywhere, if there are any. -/
theorem every_andAll (hconj : ∀ ps, p (.conj ps)) {ps : List Expr} (h : ∀ x ∈ ps, x.Every p) :
  ∀ x ∈ andAll ps, x.Every p
  := by
  unfold andAll
  split
  · simp
  · simpa using every_conjunction hconj h

end Expr

/-! ### Graphs with no join -/

namespace Graph

/-- No expression of the graph holds a join: neither an expression of a block nor the filter of
a join. -/
structure JoinFree (g : Graph) : Prop where
  blocks : ∀ q, ∀ e ∈ (g.block q).expressions, e.JoinFree
  joins : ∀ f j x, (g.item f).join = some j → j.extra = some x → x.JoinFree

/-- The blocks numbered `i` and above hold no join, and neither does the filter of any join:
what the optimizer keeps once it has done the blocks from `i` on. -/
structure JoinFreeFrom (g : Graph) (i : Nat) : Prop where
  blocks : ∀ q : QueryId, i ≤ q.idx → ∀ e ∈ (g.block q).expressions, e.JoinFree
  joins : ∀ f j x, (g.item f).join = some j → j.extra = some x → x.JoinFree

/-- The test that a column is not NULL holds no join. -/
theorem joinFree_notNull (f : FromId) (column : String) : (notNull f column).JoinFree := by
  refine .node rfl fun c hc => ?_
  simp only [notNull, Expr.children, List.mem_singleton] at hc
  subst hc
  exact .node rfl (by simp [Expr.col, Expr.children])

namespace JoinFreeFrom

variable {g : Graph} {i : Nat}

/-- With every block done, the graph holds no join. -/
theorem joinFree (hg : g.JoinFreeFrom 0) : g.JoinFree :=
  ⟨fun q => hg.blocks q (Nat.zero_le _), hg.joins⟩

/-- No block is numbered past the last: a graph whose join filters hold no join is done from
there. -/
theorem ofSize (hj : ∀ f j x, (g.item f).join = some j → j.extra = some x → x.JoinFree) :
  g.JoinFreeFrom g.blocks.size
  := by
  constructor
  · intro q hq e he
    have hnone : (default : Block).expressions = [] := rfl
    rw [block_eq_default hq, hnone] at he
    cases he
  · exact hj

/-- Block `i` holding no join, the blocks from `i` on are done. -/
theorem down (hg : g.JoinFreeFrom (i + 1)) (hi : ∀ e ∈ (g.block ⟨i⟩).expressions, e.JoinFree) :
  g.JoinFreeFrom i
  := by
  constructor
  · rintro ⟨k⟩ hk e he
    rcases Nat.lt_or_eq_of_le hk with hlt | rfl
    · exact hg.blocks ⟨k⟩ hlt e he
    · exact hi e he
  · exact hg.joins

/-- Changing one block keeps the invariant when the changed block holds no join, or is not done
yet. -/
theorem modifyBlock (hg : g.JoinFreeFrom i) (q : QueryId) (h : Block → Block)
    (hq : i ≤ q.idx → ∀ e ∈ (h (g.block q)).expressions, e.JoinFree) :
  (g.modifyBlock q h).JoinFreeFrom i
  := by
  constructor
  · intro q' hq' e he
    rw [block_modifyBlock] at he
    split at he
    · rename_i hidx
      exact hq (hidx.1 ▸ hq') e he
    · exact hg.blocks q' hq' e he
  · exact hg.joins

/-- A block changed into one with no join is done: the index comes down to it. -/
theorem modifyBlock_down {q : QueryId} (hg : g.JoinFreeFrom (q.idx + 1)) (h : Block → Block)
    (hq : ∀ e ∈ (h (g.block q)).expressions, e.JoinFree) :
  (g.modifyBlock q h).JoinFreeFrom q.idx
  := by
  refine (hg.modifyBlock q h fun hle => absurd hle (Nat.not_succ_le_self _)).down ?_
  intro e he
  rw [block_modifyBlock] at he
  split at he
  · exact hq e he
  · rename_i hout
    have hsize : g.blocks.size ≤ q.idx := by
      simp only [true_and, not_lt] at hout
      exact hout
    have hnone : (default : Block).expressions = [] := rfl
    rw [block_eq_default hsize, hnone] at he
    cases he

/-- Changing a block without changing its expressions keeps the invariant. -/
theorem modifyBlock_same (hg : g.JoinFreeFrom i) (q : QueryId) (h : Block → Block)
    (hh : ∀ b, (h b).expressions = b.expressions) :
  (g.modifyBlock q h).JoinFreeFrom i
  := hg.modifyBlock q h fun hq => (hh (g.block q)).symm ▸ hg.blocks q hq

/-- Rewriting the expressions of a block by a map that adds no join keeps the invariant. -/
theorem mapExprs (hg : g.JoinFreeFrom i) (q : QueryId) (f : Expr → Expr)
    (hf : ∀ e, e.JoinFree → (f e).JoinFree) :
  (g.modifyBlock q (Block.mapExprs f)).JoinFreeFrom i
  := by
  apply hg.modifyBlock
  intro hq
  rw [Block.expressions_mapExprs]
  intro e he
  obtain ⟨x, hx, rfl⟩ := List.mem_map.mp he
  exact hf x (hg.blocks q hq x hx)

/-- Changing one item keeps the invariant when the changed item's join filter holds no join. -/
theorem modifyItem (hg : g.JoinFreeFrom i) (f : FromId) (h : FromItem → FromItem)
    (hf : ∀ j x, (h (g.item f)).join = some j → j.extra = some x → x.JoinFree) :
  (g.modifyItem f h).JoinFreeFrom i
  := by
  constructor
  · exact hg.blocks
  · intro f' j x hj hx
    rw [item_modifyItem] at hj
    split at hj
    · exact hf j x hj hx
    · exact hg.joins f' j x hj hx

/-- Changing an item without changing its join keeps the invariant. -/
theorem modifyItem_same (hg : g.JoinFreeFrom i) (f : FromId) (h : FromItem → FromItem)
    (hh : ∀ i, (h i).join = i.join) :
  (g.modifyItem f h).JoinFreeFrom i
  := hg.modifyItem f h fun j x hj hx => hg.joins f j x ((hh _) ▸ hj) hx

/-- A filter with no join added to a block keeps the invariant. -/
theorem pushFilter (hg : g.JoinFreeFrom i) (q : QueryId) {x : Expr} (hx : x.JoinFree) :
  (g.pushFilter q x).JoinFreeFrom i
  := by
  apply hg.modifyBlock
  intro hq e he
  split at he
  · exact hg.blocks q hq e he
  · simp only [Block.expressions, List.mem_append, List.mem_singleton] at he
    rcases he with (he | rfl) | he
    · exact hg.blocks q hq e (by simp [Block.expressions, he])
    · exact hx
    · exact hg.blocks q hq e (by simp [Block.expressions, he])

/-- A new block with no join keeps the invariant. -/
theorem pushBlock (hg : g.JoinFreeFrom i) (b : Block) (hb : ∀ e ∈ b.expressions, e.JoinFree) :
  ({ g with blocks := g.blocks.push b } : Graph).JoinFreeFrom i
  := by
  constructor
  · intro q hq e he
    simp only [block, Array.getElem?_push] at he
    split at he
    · exact hb e he
    · exact hg.blocks q hq e he
  · exact hg.joins

/-! ### Absorbing joins -/

/-- Absorbing the joins of block `q` leaves none in it: a join absorbed into its target has no
filter, and the joins left in the block are written as predicates. -/
theorem absorbJoins {q : QueryId} (hg : g.JoinFreeFrom (q.idx + 1)) :
  (g.absorbJoins q).JoinFreeFrom q.idx
  := by
  unfold Graph.absorbJoins
  dsimp only
  refine JoinFreeFrom.modifyBlock_down ?_ _ fun e he => ?_
  · split
    · exact hg
    · rename_i w _
      generalize hfold : List.foldl _ (g, []) w.conjuncts = r
      obtain ⟨g', kept⟩ := r
      have hg' : (g', kept).1.JoinFreeFrom (q.idx + 1) := by
        rw [← hfold]
        refine List.foldlRecOn
          (motive := fun acc : Graph × List Expr => acc.1.JoinFreeFrom (q.idx + 1)) _ _ hg ?_
        rintro ⟨g1, kept1⟩ h1 c _
        dsimp only at h1 ⊢
        split
        · split
          · rename_i habsorb
            apply h1.modifyItem
            rintro j x ⟨⟩ hx
            simp only [canAbsorb, Bool.and_eq_true, Option.isNone_iff_eq_none] at habsorb
            rw [habsorb.1.2] at hx
            cases hx
          · exact h1
        · exact h1
      exact hg'.modifyBlock q _ fun hle => absurd hle (Nat.not_succ_le_self _)
  · rw [Block.expressions_mapExprs] at he
    obtain ⟨x, -, rfl⟩ := List.mem_map.mp he
    exact Expr.joinFree_replaceJoins x

/-! ### Removing joins -/

/-- Rewriting columns adds no join, to the blocks below `q` or to the join filters. -/
theorem mapColumnsBelow (hg : g.JoinFreeFrom i) (q : QueryId) (h : ColumnRef → ColumnRef) :
  (g.mapColumnsBelow q h).JoinFreeFrom i
  := by
  unfold Graph.mapColumnsBelow
  refine List.foldlRecOn (motive := fun g' : Graph => g'.JoinFreeFrom i) _ _ hg ?_
  intro g1 h1 b _
  have h1' := h1.mapExprs b (·.mapColumns h) fun _ he => he.mapColumns
  refine List.foldlRecOn (motive := fun g' : Graph => g'.JoinFreeFrom i) _ _ h1' ?_
  intro g2 h2 f _
  apply h2.modifyItem
  intro j x hj hx
  split at hj
  · rename_i j' hj'
    split at hj
    · rename_i x' hx'
      cases hj
      cases hx
      exact (h2.joins f j' x' hj' hx').mapColumns
    · exact h2.joins f j x (hj' ▸ hj) hx
  · rename_i hnone
    rw [hnone] at hj
    cases hj

/-- Dropping a joined target leaves tests that columns are not NULL, with no join. -/
theorem eliminateTarget (hg : g.JoinFreeFrom i) (q : QueryId) (f : FromId) :
  (g.eliminateTarget q f).JoinFreeFrom i
  := by
  unfold Graph.eliminateTarget
  dsimp only
  split
  · exact hg
  · split
    · refine List.foldlRecOn (motive := fun g' : Graph => g'.JoinFreeFrom i) _ _ ?_ ?_
      · exact (hg.mapColumnsBelow q _).modifyBlock_same q _ fun _ => rfl
      · intro g1 h1 c _
        exact h1.pushFilter q (joinFree_notNull _ _)
    · exact (hg.mapColumnsBelow q _).modifyBlock_same q _ fun _ => rfl

/-- Replacing a root by its to-many child keeps the child's join filter as a filter of the
block, and it holds no join. -/
theorem eliminateParent (hg : g.JoinFreeFrom i) (q : QueryId) (f child : FromId) :
  (g.eliminateParent q f child).JoinFreeFrom i
  := by
  unfold Graph.eliminateParent
  split
  · exact hg
  · rename_i j hj
    dsimp only
    generalize hG : ((g.modifyItem child _).mapColumnsBelow q _).modifyBlock q _ = G
    have hGs : G.JoinFreeFrom i := by
      rw [← hG]
      refine JoinFreeFrom.modifyBlock_same (JoinFreeFrom.mapColumnsBelow ?_ q _) q _ fun _ => rfl
      apply hg.modifyItem
      rintro j' x ⟨⟩
    generalize hH : List.foldl _ G j.link.targetColumns = H
    have hHs : H.JoinFreeFrom i := by
      rw [← hH]
      exact List.foldlRecOn (motive := fun g' : Graph => g'.JoinFreeFrom i) _ _ hGs
        fun g1 h1 _ _ => h1.pushFilter q (joinFree_notNull _ _)
    split
    · rename_i x hx
      exact hHs.pushFilter q (hg.joins child j x hj hx)
    · exact hHs

/-- Removing one item keeps the invariant. -/
theorem eliminateOne (hg : g.JoinFreeFrom i) (q : QueryId) {g' : Graph}
    (h : g.eliminateOne q = some g') :
  g'.JoinFreeFrom i
  := by
  obtain ⟨f, -, ⟨-, rfl⟩ | ⟨c, -, rfl⟩⟩ := eliminateOne_cases h
  · exact hg.eliminateTarget q f
  · exact hg.eliminateParent q f c

/-- Removing items until none can go keeps the invariant. -/
theorem eliminateJoins (hg : g.JoinFreeFrom i) (q : QueryId) :
  (g.eliminateJoins q).JoinFreeFrom i
  := eliminateJoins_preserves (fun g₁ => g₁.JoinFreeFrom i) q
    (fun _ _ h₁ h => h₁.eliminateOne q h) hg

/-! ### Deciding and placing joins -/

/-- Deciding inner and outer joins changes no join and no expression. -/
theorem inferSemantics (hg : g.JoinFreeFrom i) (q : QueryId) :
  (g.inferSemantics q).JoinFreeFrom i
  := inferSemantics_preserves (fun g₁ => g₁.JoinFreeFrom i)
    (fun _ f _ h => h.modifyItem_same f _ fun _ => rfl) hg q

/-- Placing outer joins after their parents only reorders a FROM list. -/
theorem reorderOuter (hg : g.JoinFreeFrom i) (q : QueryId) : (g.reorderOuter q).JoinFreeFrom i :=
  hg.modifyBlock_same q _ fun _ => rfl

/-! ### Joins of UPDATE and DELETE -/

/-- The correlated graph keeps the invariant: its two changed blocks hold expressions of the old
block, conjunctions of its conditions, the literal the new block selects and an `EXISTS`. -/
theorem correlated (hg : g.JoinFreeFrom i) {q : QueryId} (hi : i ≤ q.idx)
    (hq : q.idx < g.blocks.size) :
  (g.correlated q).JoinFreeFrom i
  := by
  obtain ⟨hkept, hbulk⟩ := expressions_correlated Expr.JoinFree
    (fun _ => Expr.Every.conjuncts) (fun _ => Expr.every_andAll fun _ => rfl) (hg.blocks q hi)
    (.node rfl (by simp [Expr.children])) (.node rfl (by simp [Expr.children]))
  refine ⟨fun b hb e he => ?_, fun f j x hj hx => ?_⟩
  · rw [block_correlated hq] at he
    split_ifs at he
    · exact hkept e he
    · exact hbulk e he
    · exact hg.blocks b hb e he
  · rw [join_item_correlated] at hj
    exact hg.joins f j x hj hx

/-- Moving the joins of an UPDATE or DELETE block into a correlated sub-query keeps the
invariant once the block is done. -/
theorem correlateBulkJoins (hg : g.JoinFreeFrom i) {q : QueryId} (hi : i ≤ q.idx) {g' : Graph}
    (h : g.correlateBulkJoins q = .ok g') :
  g'.JoinFreeFrom i
  := by
  rcases correlateBulkJoins_eq_ok h with rfl | ⟨-, hq, -, rfl⟩
  · exact hg
  · exact hg.correlated hi hq

/-! ### The optimizer -/

/-- Optimizing block `q` once the blocks after it are done leaves it done as well. -/
theorem optimizeBlock {q : QueryId} (hg : g.JoinFreeFrom (q.idx + 1)) {g' : Graph}
    (h : g.optimizeBlock q = .ok g') :
  g'.JoinFreeFrom q.idx
  := by
  unfold Graph.optimizeBlock at h
  exact ((((hg.absorbJoins.eliminateJoins q).inferSemantics q).reorderOuter q).correlateBulkJoins
    (le_refl _) h)

/-- Optimizing the blocks numbered below `n`, the last first, from a graph done from `n` on,
leaves every block done. -/
theorem optimize_range (n : Nat) {g g' : Graph} (hg : g.JoinFreeFrom n)
    (h : (List.range n).reverse.foldlM (fun g i => g.optimizeBlock ⟨i⟩) g = .ok g') :
  g'.JoinFreeFrom 0
  := by
  induction n generalizing g with
  | zero =>
    simp only [List.range_zero, List.reverse_nil, List.foldlM_nil, pure, Except.pure,
      Except.ok.injEq] at h
    exact h ▸ hg
  | succ n ih =>
    rw [List.range_succ, List.reverse_append, List.reverse_singleton, List.singleton_append,
      List.foldlM_cons] at h
    cases hstep : g.optimizeBlock ⟨n⟩ with
    | error r =>
      rw [hstep] at h
      cases h
    | ok g1 =>
      rw [hstep] at h
      exact ih (hg.optimizeBlock hstep) h

end JoinFreeFrom

/-- The optimizer writes every join of a graph as its predicate, or makes it the join of its
target, when the join filters hold no join: the graph it gives holds no join anywhere. -/
theorem JoinFree.optimize {g g' : Graph}
    (hj : ∀ f j x, (g.item f).join = some j → j.extra = some x → x.JoinFree)
    (h : g.optimize = .ok g') :
  g'.JoinFree
  := (JoinFreeFrom.optimize_range _ (JoinFreeFrom.ofSize hj) h).joinFree

end Graph

namespace ParsedQuery

/-- Reading lowers every path, and optimizing then leaves no join: a statement read from any
text holds no path in any expression and loads an entity whole only as a select item, and the
graph the optimizer makes of it holds no join in any expression. -/
theorem read_lowered_optimize_joinFree {schema : Schema} {aliasPrefix text : String}
    {p : ParsedQuery} (h : read schema aliasPrefix text = .ok p) :
  p.graph.Lowered ∧ ∀ g, p.graph.optimize = .ok g → g.JoinFree
  := by
  have hlowered := lowered_read h
  refine ⟨hlowered, fun g hg => Graph.JoinFree.optimize ?_ hg⟩
  exact fun f j x hj hx => (hlowered.joins f j x hj hx).2

end ParsedQuery

/-- Employees, each with a manager who is an employee. -/
def Schema.managed : Schema :=
  Schema.withEntity {}
    ((Entity.named "Employee" { name := "employees" }).withId "id" "id"
      |>.withManyToOne "manager" "Employee" ["manager_id"])

/-- The condition `e.manager = m` is read as a join, and the optimizer leaves none. -/
theorem managed_join_optimized_away :
  ∃ p, ParsedQuery.read Schema.managed "eql"
      "SELECT e FROM Employee e, Employee m WHERE e.manager = m" = .ok p ∧
    (p.graph.block ⟨0⟩).body.whereClause.map Expr.isJoin = some true ∧ p.graph.Lowered ∧
    ∃ g, p.graph.optimize = .ok g ∧ g.JoinFree
  := by
  have hrun : ((ParsedQuery.read Schema.managed "eql"
      "SELECT e FROM Employee e, Employee m WHERE e.manager = m").toOption.map fun p =>
        ((p.graph.block ⟨0⟩).body.whereClause.map Expr.isJoin, p.graph.optimize.isOk)) =
      some (some true, true) := by
    decide +kernel
  cases hp : ParsedQuery.read Schema.managed "eql"
      "SELECT e FROM Employee e, Employee m WHERE e.manager = m" with
  | error e =>
    rw [hp] at hrun
    cases hrun
  | ok p =>
    rw [hp] at hrun
    obtain ⟨hlowered, hjoinFree⟩ := ParsedQuery.read_lowered_optimize_joinFree hp
    simp only [Except.toOption, Option.map_some, Option.some.injEq, Prod.mk.injEq] at hrun
    cases hg : p.graph.optimize with
    | error r => simp [hg, Except.isOk, Except.toBool] at hrun
    | ok g => exact ⟨p, rfl, hrun.1, hlowered, g, hg, hjoinFree g hg⟩

end EntityQuery
