import EntityQuery.Proofs.Query.Correlated

/-!
# Optimizing keeps a graph sound

Every pass of the optimizer moves, rewrites or drops expressions the graph already holds. It
adds only tests that a column is not NULL, the literal a correlated `EXISTS (SELECT 1 ...)`
selects, and the `EXISTS` itself, and it never touches the parameters. So each pass keeps a
graph sound (`Graph.Sound.absorbJoins`, `eliminateJoins`, `inferSemantics`, `reorderOuter`,
`correlateBulkJoins`), and so does the optimizer (`Graph.Sound.optimize`).

A pass that folds over a list of items or conditions is shown sound by the invariant of the
fold (`List.foldlRecOn`), and a pass that loops on fuel by induction on the fuel.
-/

namespace EntityQuery

open EntityQuery.Expr

/-! ### Expressions of changed blocks -/

theorem Body.expressions_mapExprs (f : Expr → Expr) (b : Body) :
  (b.mapExprs f).expressions = b.expressions.map f
  := by
  cases b <;> simp [Body.mapExprs, Body.expressions, Option.toList_map]

theorem Block.expressions_mapExprs (f : Expr → Expr) (b : Block) :
  (b.mapExprs f).expressions = b.expressions.map f
  := by
  simp [Block.mapExprs, Block.expressions, Body.expressions_mapExprs]

/-- A conjunction of writable conditions is writable. -/
theorem Expr.writable_andAll {n : Nat} {ps : List Expr} (hps : ∀ p ∈ ps, p.Writable n) :
  ∀ e ∈ andAll ps, e.Writable n
  := by
  intro e he
  simp only [andAll] at he
  split at he
  · cases he
  · cases he
    rw [writable_conjunction, writableAll_iff]
    exact hps

namespace Graph

variable {g : Graph}

@[simp]
theorem arguments_pushFilter (q : QueryId) (e : Expr) : (g.pushFilter q e).arguments = g.arguments :=
  rfl

namespace Sound

/-- Rewriting the expressions of a block by a map that keeps them writable keeps a graph
sound. -/
theorem mapExprs (hg : g.Sound) (q : QueryId) (f : Expr → Expr)
    (hf : ∀ e, e.Writable g.arguments.size → (f e).Writable g.arguments.size) :
  (g.modifyBlock q (Block.mapExprs f)).Sound
  := by
  apply hg.modifyBlock
  rw [Block.expressions_mapExprs]
  intro e he
  obtain ⟨x, hx, rfl⟩ := List.mem_map.mp he
  exact hf x (hg.blocks q x hx)

/-- Changing a block without changing its expressions keeps a graph sound. -/
theorem modifyBlock_same (hg : g.Sound) (q : QueryId) (h : Block → Block)
    (hh : ∀ b, (h b).expressions = b.expressions) :
  (g.modifyBlock q h).Sound
  := by
  apply hg.modifyBlock
  rw [hh]
  exact hg.blocks q

/-- Changing an item without changing its join keeps a graph sound. -/
theorem modifyItem_same (hg : g.Sound) (f : FromId) (h : FromItem → FromItem)
    (hh : ∀ i, (h i).join = i.join) :
  (g.modifyItem f h).Sound
  := by
  apply hg.modifyItem
  rw [hh]
  exact hg.joins f

/-- Adding a writable filter keeps a graph sound. -/
theorem pushFilter (hg : g.Sound) (q : QueryId) {e : Expr} (he : e.Writable g.arguments.size) :
  (g.pushFilter q e).Sound
  := by
  apply hg.modifyBlock
  intro x hx
  split at hx
  · exact hg.blocks q x hx
  · simp only [Block.expressions, List.mem_append, List.mem_singleton] at hx
    rcases hx with (hx | rfl) | hx
    · exact hg.blocks q x (by simp [Block.expressions, hx])
    · exact he
    · exact hg.blocks q x (by simp [Block.expressions, hx])

/-- Absorbing the joins of a block's WHERE conjunction into their targets, and writing the
joins left in its expressions as predicates, keeps a graph sound: an absorbed join's filter
was writable as a condition, and the conditions kept are parts of the old one. -/
theorem absorbJoins (hg : g.Sound) (q : QueryId) : (g.absorbJoins q).Sound := by
  unfold Graph.absorbJoins
  dsimp only
  apply Sound.mapExprs _ q _ fun e he => (writable_replaceJoins e).mpr he
  split
  · exact hg
  · rename_i w hw
    have hconj : ∀ c ∈ w.conjuncts, c.Writable g.arguments.size := by
      apply Writable.conjuncts
      apply hg.blocks q
      simp only [Block.expressions, List.mem_append]
      right
      cases hb : (g.block q).body <;> simp_all [Body.whereClause, Body.expressions]
    generalize hfold : List.foldl _ (g, []) w.conjuncts = r
    obtain ⟨g', kept⟩ := r
    let M := fun acc : Graph × List Expr => acc.1.Sound ∧ acc.1.arguments = g.arguments ∧
      ∀ e ∈ acc.2, e.Writable g.arguments.size
    have hM : M (g', kept) := by
      rw [← hfold]
      refine List.foldlRecOn (motive := M) w.conjuncts _ ⟨hg, rfl, by simp⟩ ?_
      rintro ⟨g1, kept1⟩ ⟨hs, hargs, hkept⟩ c hc
      dsimp only at hs hargs hkept ⊢
      have hcw := hconj c hc
      split
      · rename_i l extra
        split
        · refine ⟨?_, by simp [hargs], hkept⟩
          apply hs.modifyItem
          intro j x hj hx
          cases hj
          subst hx
          rw [hargs]
          exact hcw
        · exact ⟨hs, hargs, by simpa [or_imp, forall_and] using ⟨hkept, hcw⟩⟩
      · exact ⟨hs, hargs, by simpa [or_imp, forall_and] using ⟨hkept, hcw⟩⟩
    obtain ⟨hs, hargs, hkept⟩ := hM
    apply hs.modifyBlock
    intro e he
    simp only [Block.expressions, List.mem_append] at he
    rcases he with he | he
    · exact hs.blocks q e (by simp [Block.expressions, he])
    · rcases Body.mem_expressions_withWhere he with he | he
      · exact hs.blocks q e (by simp [Block.expressions, he])
      · simp only [andAll] at he
        split at he
        · cases he
        · cases he
          rw [hargs]
          exact (writable_conjunction kept).mpr ((writableAll_iff kept).mpr hkept)

end Sound

/-! ### Removing joins -/

@[simp]
theorem arguments_mapColumnsBelow (q : QueryId) (h : ColumnRef → ColumnRef) :
  (g.mapColumnsBelow q h).arguments = g.arguments
  := by
  unfold mapColumnsBelow
  refine List.foldlRecOn (motive := fun g' : Graph => g'.arguments = g.arguments) _ _ rfl ?_
  intro g1 h1 b _
  refine List.foldlRecOn (motive := fun g' : Graph => g'.arguments = g.arguments) _ _
    (by simp [h1]) ?_
  intro g2 h2 i _
  simp [h2]

/-- Rewriting the columns of a block and of the blocks below it keeps a graph sound. -/
theorem Sound.mapColumnsBelow (hg : g.Sound) (q : QueryId) (h : ColumnRef → ColumnRef) :
  (g.mapColumnsBelow q h).Sound
  := by
  unfold Graph.mapColumnsBelow
  refine List.foldlRecOn (motive := Graph.Sound) _ _ hg ?_
  intro g1 h1 b _
  have h1' := h1.mapExprs b (·.mapColumns h) fun e he => (writable_mapColumns h e).mpr he
  refine List.foldlRecOn (motive := Graph.Sound) _ _ h1' ?_
  intro g2 h2 i _
  apply h2.modifyItem
  intro j x hj hx
  split at hj
  · rename_i j' hj'
    split at hj
    · rename_i x' hx'
      cases hj
      cases hx
      exact (writable_mapColumns h x').mpr (h2.joins i j' x' hj' hx')
    · exact h2.joins i j x (hj' ▸ hj) hx
  · rename_i hnone
    rw [hnone] at hj
    cases hj

@[simp]
theorem arguments_eliminateTarget (q : QueryId) (f : FromId) :
  (g.eliminateTarget q f).arguments = g.arguments
  := by
  unfold eliminateTarget
  dsimp only
  split
  · rfl
  · split
    · refine List.foldlRecOn (motive := fun g' : Graph => g'.arguments = g.arguments) _ _
        (by simp) ?_
      intro g1 h1 c _
      simp [h1]
    · simp

/-- Dropping a joined target keeps a graph sound: the tests left behind read columns only. -/
theorem Sound.eliminateTarget (hg : g.Sound) (q : QueryId) (f : FromId) :
  (g.eliminateTarget q f).Sound
  := by
  unfold Graph.eliminateTarget
  dsimp only
  split
  · exact hg
  · split
    · refine List.foldlRecOn (motive := Graph.Sound) _ _ ?_ ?_
      · exact (hg.mapColumnsBelow q _).modifyBlock_same q _ fun _ => rfl
      · intro g1 h1 c _
        exact h1.pushFilter q trivial
    · exact (hg.mapColumnsBelow q _).modifyBlock_same q _ fun _ => rfl

/-- Replacing a root by its to-many child keeps a graph sound: the child's join filter, which
stays as a filter of the block, was writable as a filter of the join. -/
theorem Sound.eliminateParent (hg : g.Sound) (q : QueryId) (f child : FromId) :
  (g.eliminateParent q f child).Sound
  := by
  unfold Graph.eliminateParent
  split
  · exact hg
  · rename_i j hj
    dsimp only
    generalize hG : ((g.modifyItem child _).mapColumnsBelow q _).modifyBlock q _ = G
    have hGs : G.Sound := by
      rw [← hG]
      refine Sound.modifyBlock_same (Sound.mapColumnsBelow ?_ q _) q _ fun _ => rfl
      apply hg.modifyItem
      intro j' x hj' _
      cases hj'
    have hGa : G.arguments = g.arguments := by
      rw [← hG]
      simp
    generalize hH : List.foldl _ G j.link.targetColumns = H
    have hHs : H.Sound := by
      rw [← hH]
      exact List.foldlRecOn (motive := Graph.Sound) _ _ hGs fun g1 h1 _ _ => h1.pushFilter q trivial
    have hHa : H.arguments = g.arguments := by
      rw [← hH]
      refine List.foldlRecOn (motive := fun g' : Graph => g'.arguments = g.arguments) _ _ hGa ?_
      intro g1 h1 c _
      simp [h1]
    split
    · rename_i x hx
      apply hHs.pushFilter q
      rw [hHa]
      exact hg.joins child j x hj hx
    · exact hHs

/-- Removing items one at a time until none can go keeps what each removal keeps. -/
theorem eliminateJoins_preserves (P : Graph → Prop) (q : QueryId)
    (hone : ∀ g₁ g₂, P g₁ → g₁.eliminateOne q = some g₂ → P g₂) (hg : P g) :
  P (g.eliminateJoins q)
  := by
  unfold eliminateJoins
  generalize (g.block q).fromList.length + 1 = fuel
  induction fuel generalizing g with
  | zero => exact hg
  | succ fuel ih =>
    rw [eliminateJoins.go]
    split
    · rename_i g' h
      exact ih (hone g g' hg h)
    · exact hg

/-- A removal drops a target that can go or replaces a root by its only child, an item of the
block's list in either case. -/
theorem eliminateOne_cases {q : QueryId} {g' : Graph} (h : g.eliminateOne q = some g') :
  ∃ f ∈ (g.block q).fromList, (g.isUnusedTarget q f = true ∧ g' = g.eliminateTarget q f) ∨
    ∃ c, g.unusedParent q f = some c ∧ g' = g.eliminateParent q f c
  := by
  unfold eliminateOne at h
  suffices hgo : ∀ fs : List FromId, (∀ f ∈ fs, f ∈ (g.block q).fromList) →
      eliminateOne.go g q fs = some g' →
      ∃ f ∈ (g.block q).fromList, (g.isUnusedTarget q f = true ∧ g' = g.eliminateTarget q f) ∨
        ∃ c, g.unusedParent q f = some c ∧ g' = g.eliminateParent q f c from
    hgo _ (fun _ hf => hf) h
  intro fs
  induction fs with
  | nil => exact fun _ h => by cases h
  | cons f rest ih =>
    intro hsub h
    rw [eliminateOne.go] at h
    split at h
    · rename_i hU
      cases h
      exact ⟨f, hsub f List.mem_cons_self, .inl ⟨hU, rfl⟩⟩
    · split at h
      · rename_i c hc
        cases h
        exact ⟨f, hsub f List.mem_cons_self, .inr ⟨c, hc, rfl⟩⟩
      · exact ih (fun x hx => hsub x (List.mem_cons_of_mem _ hx)) h

/-- Removing one item keeps a graph sound. -/
theorem Sound.eliminateOne (hg : g.Sound) (q : QueryId) {g' : Graph}
    (h : g.eliminateOne q = some g') :
  g'.Sound
  := by
  obtain ⟨f, -, ⟨-, rfl⟩ | ⟨c, -, rfl⟩⟩ := eliminateOne_cases h
  · exact hg.eliminateTarget q f
  · exact hg.eliminateParent q f c

/-- Removing items until none can go keeps a graph sound. -/
theorem Sound.eliminateJoins (hg : g.Sound) (q : QueryId) : (g.eliminateJoins q).Sound :=
  eliminateJoins_preserves Graph.Sound q (fun _ _ h₁ h => h₁.eliminateOne q h) hg

/-! ### Deciding and placing joins -/

/-- Deciding the joins of a block sets the semantics of items one at a time: what setting the
semantics of one item keeps, deciding keeps. Open joins are decided one item at a time, then
outer parents of inner items become inner, pass after pass. -/
theorem inferSemantics_preserves (P : Graph → Prop)
    (hstep : ∀ g₁ f s, P g₁ → P (g₁.modifyItem f fun i => { i with semantics := s }))
    (hg : P g) (q : QueryId) :
  P (g.inferSemantics q)
  := by
  unfold Graph.inferSemantics
  dsimp only
  have hdecide : P (g.decideJoins q (g.conditions q) (g.block q).fromList) := by
    unfold decideJoins
    refine List.foldlRecOn (motive := P) _ _ hg ?_
    intro g1 h1 f _
    dsimp only
    split
    · exact h1
    · split
      · exact h1
      · exact hstep _ _ _ h1
  unfold innerParents
  generalize (g.block q).fromList.length + 1 = fuel
  generalize g.decideJoins q (g.conditions q) (g.block q).fromList = g1 at hdecide
  induction fuel generalizing g1 with
  | zero => exact hdecide
  | succ fuel ih =>
    rw [innerParents.go]
    have hpass : P (g1.innerParentsPass (g.block q).fromList).1 := by
      unfold innerParentsPass
      refine List.foldlRecOn (motive := fun acc : Graph × Bool => P acc.1) _ _ hdecide ?_
      rintro ⟨g2, changed⟩ h2 f _
      dsimp only at h2 ⊢
      split
      · exact h2
      · split
        · exact h2
        · split
          · exact hstep _ _ _ h2
          · exact h2
    split
    · rename_i g' hg'
      rw [hg'] at hpass
      exact ih g' hpass
    · rename_i g' hg'
      rw [hg'] at hpass
      exact hpass

/-- Deciding inner and outer joins changes no join, so it keeps a graph sound. -/
theorem Sound.inferSemantics (hg : g.Sound) (q : QueryId) : (g.inferSemantics q).Sound :=
  inferSemantics_preserves Graph.Sound (fun _ f _ h => h.modifyItem_same f _ fun _ => rfl) hg q

/-- Placing outer joins after their parents only reorders a FROM list. -/
theorem Sound.reorderOuter (hg : g.Sound) (q : QueryId) : (g.reorderOuter q).Sound :=
  hg.modifyBlock_same q _ fun _ => rfl

/-! ### Joins of UPDATE and DELETE -/

/-- The correlated graph of a sound graph is sound: its two changed blocks hold expressions of
the old block, conjunctions of its conditions, a literal and an `EXISTS`. -/
theorem Sound.correlated (hg : g.Sound) {q : QueryId} (hq : q.idx < g.blocks.size) :
  (g.correlated q).Sound
  := by
  obtain ⟨hkept, hbulk⟩ := expressions_correlated (Writable g.arguments.size)
    (fun _ => Writable.conjuncts) (fun _ => writable_andAll) (hg.blocks q) trivial trivial
  refine ⟨fun b e he => ?_, fun f j x hj hx => ?_, ?_⟩ <;> rw [arguments_correlated]
  · rw [block_correlated hq] at he
    split_ifs at he
    · exact hkept e he
    · exact hbulk e he
    · exact hg.blocks b e he
  · rw [join_item_correlated] at hj
    exact hg.joins f j x hj hx
  · exact hg.unbound

/-- Moving the joins of an UPDATE or DELETE into a correlated sub-query keeps a graph sound. -/
theorem Sound.correlateBulkJoins (hg : g.Sound) (q : QueryId) {g' : Graph}
    (h : g.correlateBulkJoins q = .ok g') :
  g'.Sound
  := by
  rcases correlateBulkJoins_eq_ok h with rfl | ⟨-, hq, -, rfl⟩
  · exact hg
  · exact hg.correlated hq

/-! ### The optimizer -/

/-- What optimizing any one block keeps, the optimizer keeps: it optimizes the blocks one after
another, the last made first. -/
theorem optimize_preserves (P : Graph → Prop)
    (hblock : ∀ g₁ q g₂, P g₁ → g₁.optimizeBlock q = .ok g₂ → P g₂) (hg : P g) {g' : Graph}
    (h : g.optimize = .ok g') :
  P g'
  := by
  unfold Graph.optimize at h
  generalize (List.range g.blocks.size).reverse = qs at h
  induction qs generalizing g with
  | nil =>
    simp only [List.foldlM_nil, pure, Except.pure, Except.ok.injEq] at h
    exact h ▸ hg
  | cons i qs ih =>
    rw [List.foldlM_cons] at h
    cases hstep : g.optimizeBlock ⟨i⟩ with
    | error r =>
      rw [hstep] at h
      cases h
    | ok g1 =>
      rw [hstep] at h
      exact ih (hblock g _ g1 hg hstep) h

/-- Optimizing one block keeps a graph sound. -/
theorem Sound.optimizeBlock (hg : g.Sound) (q : QueryId) {g' : Graph}
    (h : g.optimizeBlock q = .ok g') :
  g'.Sound
  := by
  unfold Graph.optimizeBlock at h
  exact ((((hg.absorbJoins q).eliminateJoins q).inferSemantics q).reorderOuter q).correlateBulkJoins q h

/-- The optimizer keeps a graph sound: it runs the passes block by block, each of which does. -/
theorem Sound.optimize (hg : g.Sound) {g' : Graph} (h : g.optimize = .ok g') : g'.Sound :=
  optimize_preserves Graph.Sound (fun _ q _ h₁ h₂ => h₁.optimizeBlock q h₂) hg h

/-! ### The parameters

No pass of the optimizer adds, drops or changes a parameter: each changes blocks and items
only. -/

/-- Steps that each keep the parameters keep them over a fold. -/
theorem arguments_foldl {α : Type} (step : Graph → α → Graph)
    (hstep : ∀ g a, (step g a).arguments = g.arguments) (l : List α) (g : Graph) :
  (l.foldl step g).arguments = g.arguments
  := by
  induction l generalizing g with
  | nil => rfl
  | cons a l ih => rw [List.foldl_cons, ih, hstep]

@[simp]
theorem arguments_absorbJoins (q : QueryId) : (g.absorbJoins q).arguments = g.arguments := by
  unfold absorbJoins
  dsimp only
  rw [arguments_modifyBlock]
  split
  · rfl
  · generalize hfold : List.foldl _ (g, []) _ = r
    obtain ⟨g', kept⟩ := r
    have hkeep : (g', kept).1.arguments = g.arguments := by
      rw [← hfold]
      refine List.foldlRecOn (motive := fun acc : Graph × List Expr => acc.1.arguments = g.arguments)
        _ _ rfl ?_
      rintro ⟨g1, kept1⟩ h1 c _
      dsimp only at h1 ⊢
      split
      · split
        · exact h1
        · exact h1
      · exact h1
    exact hkeep

@[simp]
theorem arguments_eliminateParent (q : QueryId) (f child : FromId) :
  (g.eliminateParent q f child).arguments = g.arguments
  := by
  unfold eliminateParent
  split
  · rfl
  · dsimp only
    split <;> simp [arguments_foldl _ fun _ _ => arguments_pushFilter _ _]

theorem arguments_eliminateOne {q : QueryId} {g' : Graph} (h : g.eliminateOne q = some g') :
  g'.arguments = g.arguments
  := by
  obtain ⟨f, -, ⟨-, rfl⟩ | ⟨c, -, rfl⟩⟩ := eliminateOne_cases h
  · exact arguments_eliminateTarget q f
  · exact arguments_eliminateParent q f c

@[simp]
theorem arguments_eliminateJoins (q : QueryId) : (g.eliminateJoins q).arguments = g.arguments :=
  eliminateJoins_preserves (fun g₁ => g₁.arguments = g.arguments) q
    (fun _ _ h₁ h => (arguments_eliminateOne h).trans h₁) rfl

@[simp]
theorem arguments_inferSemantics (q : QueryId) : (g.inferSemantics q).arguments = g.arguments :=
  inferSemantics_preserves (fun g₁ => g₁.arguments = g.arguments)
    (fun _ f _ h => (arguments_modifyItem _ f _).trans h) rfl q

@[simp]
theorem arguments_reorderOuter (q : QueryId) : (g.reorderOuter q).arguments = g.arguments :=
  rfl

theorem arguments_correlateBulkJoins {q : QueryId} {g' : Graph}
    (h : g.correlateBulkJoins q = .ok g') :
  g'.arguments = g.arguments
  := by
  rcases correlateBulkJoins_eq_ok h with rfl | ⟨-, -, -, rfl⟩
  · rfl
  · exact arguments_correlated

theorem arguments_optimizeBlock {q : QueryId} {g' : Graph} (h : g.optimizeBlock q = .ok g') :
  g'.arguments = g.arguments
  := by
  unfold optimizeBlock at h
  rw [arguments_correlateBulkJoins h]
  simp

/-- The optimizer keeps the parameters of a graph, their sources and ordinals alike. -/
theorem arguments_optimize {g' : Graph} (h : g.optimize = .ok g') : g'.arguments = g.arguments :=
  optimize_preserves (fun g₁ => g₁.arguments = g.arguments)
    (fun _ _ _ h₁ h₂ => (arguments_optimizeBlock h₂).trans h₁) rfl h

end Graph

end EntityQuery
