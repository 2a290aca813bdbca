import EntityQuery.Proofs.Graph.WellFormed
import EntityQuery.Proofs.Query.Optimized
import EntityQuery.Query.Optimize

/-!
# Optimizing keeps a graph well-formed

Every pass of the optimizer keeps a well-formed graph well-formed, block by block, and so does
the optimizer (`Graph.WellFormed.optimize`).

Most of a pass rewrites expressions by maps that keep them within the graph, or drops items
from a FROM list. Three steps change the shape of the graph:

* absorbing `path = alias` gives an unjoined item a join. `Graph.canAbsorb` walks up from the
  new parent and refuses a join whose target it meets; since the walk is long enough to meet
  every item above the parent (`Graph.mem_ancestors_iff`), the new join closes no cycle
  (`Graph.WellFormed.absorb`);
* replacing a root by its to-many child puts the child in the root's place in the FROM list;
  the child belongs to the block, and the list still holds each item once;
* placing outer joins after their parents rebuilds a FROM list from the trees of outer joins.
  Each item has at most one outer parent and the joins are acyclic, so the trees are disjoint
  and each item of the list is in at most one of them (`Graph.nodup_reorderOuter`).

Moving the joins of an UPDATE or DELETE into a new block gives their items to that block and
leaves the first item to the old one; the two parts of a FROM list that holds each item once
share none.
-/

namespace EntityQuery

/-- A body rewritten expression by expression is a SELECT only if it was one, with the same
`JOIN FETCH` declarations. -/
theorem Body.mapExprs_eq_select {f : Expr → Expr} {b : Body} {s : SelectBody}
    (h : b.mapExprs f = .select s) :
  ∃ s', b = .select s' ∧ s.fetches = s'.fetches
  := by
  cases b with
  | select s' =>
    cases h
    exact ⟨s', rfl, rfl⟩
  | update => cases h
  | delete => cases h

/-- A body with another WHERE condition is a SELECT only if it was one, with the same
`JOIN FETCH` declarations. -/
theorem Body.withWhere_eq_select {w : Option Expr} {b : Body} {s : SelectBody}
    (h : b.withWhere w = .select s) :
  ∃ s', b = .select s' ∧ s.fetches = s'.fetches
  := by
  cases b with
  | select s' =>
    cases h
    exact ⟨s', rfl, rfl⟩
  | update => cases h
  | delete => cases h

namespace Graph

variable {g : Graph}

/-- The walk that `parentsReach` makes is the walk of `ancestors`. -/
theorem parentsReach_eq (target : FromId) (n : Nat) (here : FromId) :
  g.parentsReach target n here = decide (target ∈ g.ancestors n here)
  := by
  induction n generalizing here with
  | zero => simp [parentsReach, ancestors]
  | succ n ih =>
    cases hj : (g.item here).join with
    | none =>
      simp only [parentsReach, ancestors_succ_of_none hj, hj, List.mem_singleton, @eq_comm _ target,
        Bool.or_false]
      rfl
    | some j =>
      simp only [parentsReach, ancestors_succ_of_join hj, hj, ih, List.mem_cons, @eq_comm _ target,
        Bool.decide_or]
      rfl

/-- The child that replaces a root belongs to the root's block. -/
theorem owner_of_unusedParent {q : QueryId} {f child : FromId}
    (h : g.unusedParent q f = some child) :
  (g.item child).owner = q
  := by
  unfold unusedParent at h
  dsimp only at h
  split at h
  · cases h
  · split at h
    · rename_i c _
      split at h
      · cases h
      · split at h
        · cases h
        · split at h
          · cases h
          · rename_i hne
            cases h
            simp_all
    · cases h

/-! ### Trees of outer joins -/

/-- `c` is outer-joined to `p`, an item of `list`: `c` hangs below `p` in the trees that
`placeOuter` lists. -/
def OuterChild (g : Graph) (list : List FromId) (p c : FromId) : Prop :=
  g.outerParent list c = some p

section Outer

variable {list : List FromId}

/-- An outer child is joined to its outer parent. -/
theorem joinParent_of_outerChild {p c : FromId} (h : g.OuterChild list p c) : g.JoinParent p c := by
  unfold OuterChild outerParent at h
  dsimp only at h
  split at h
  · cases h
  · split at h
    · rename_i j hj
      split at h
      · cases h
        exact ⟨j, hj, rfl⟩
      · cases h
    · cases h

/-- An item has at most one outer parent. -/
theorem outerChild_unique {p p' c : FromId} (h : g.OuterChild list p c)
    (h' : g.OuterChild list p' c) :
  p = p'
  := Option.some_inj.mp (h.symm.trans h')

/-- No item is below itself in the trees of outer joins of an acyclic graph. -/
theorem not_transGen_outerChild (hwf : WellFounded g.JoinParent) (f : FromId) :
  ¬ Relation.TransGen (g.OuterChild list) f f
  := fun h => hwf.transGen.irrefl.irrefl f
    (Relation.TransGen.mono (fun _ _ hc => joinParent_of_outerChild hc) f f h)

/-- Two items above a third are one above the other, since each item has one parent. -/
theorem outerChild_total {a b y : FromId} (ha : Relation.ReflTransGen (g.OuterChild list) a y)
    (hb : Relation.ReflTransGen (g.OuterChild list) b y) :
  Relation.ReflTransGen (g.OuterChild list) a b ∨ Relation.ReflTransGen (g.OuterChild list) b a
  := by
  have hU : Relator.RightUnique (flip (g.OuterChild list)) :=
    fun _ _ _ h h' => outerChild_unique h h'
  rw [← Relation.reflTransGen_swap] at ha hb
  rcases Relation.ReflTransGen.total_of_right_unique hU ha hb with h | h
  · exact Or.inr (Relation.reflTransGen_swap.mp h)
  · exact Or.inl (Relation.reflTransGen_swap.mp h)

/-- Two distinct outer children of one item are not one above the other. -/
theorem not_reflTransGen_sibling (hwf : WellFounded g.JoinParent) {f c₁ c₂ : FromId}
    (h₁ : g.OuterChild list f c₁) (h₂ : g.OuterChild list f c₂) (hne : c₁ ≠ c₂) :
  ¬ Relation.ReflTransGen (g.OuterChild list) c₁ c₂
  := by
  intro h
  rcases h.cases_tail with rfl | ⟨z, hz, hzc⟩
  · exact hne rfl
  · rw [outerChild_unique hzc h₂] at hz
    exact not_transGen_outerChild hwf f (Relation.TransGen.head' h₁ hz)

/-- An item of the tree below `f` is `f` or an item of the list, and `f` is above it. -/
theorem mem_placeOuter {n : Nat} {f y : FromId} (hy : y ∈ g.placeOuter list n f) :
  Relation.ReflTransGen (g.OuterChild list) f y ∧ (y = f ∨ y ∈ list)
  := by
  induction n generalizing f with
  | zero =>
    rw [placeOuter, List.mem_singleton] at hy
    exact ⟨hy ▸ .refl, Or.inl hy⟩
  | succ n ih =>
    rw [placeOuter] at hy
    rcases List.mem_cons.mp hy with rfl | hy
    · exact ⟨.refl, Or.inl rfl⟩
    · obtain ⟨c, hc, hyc⟩ := List.mem_flatMap.mp hy
      obtain ⟨hcl, hcf⟩ := List.mem_filter.mp hc
      have hcf : g.OuterChild list f c := by simpa [OuterChild] using hcf
      obtain ⟨hr, hmem⟩ := ih hyc
      refine ⟨Relation.ReflTransGen.head hcf hr, Or.inr ?_⟩
      rcases hmem with rfl | hmem
      · exact hcl
      · exact hmem

/-- The tree below an item lists each item once. -/
theorem nodup_placeOuter (hwf : WellFounded g.JoinParent) (hl : list.Nodup) (n : Nat)
    (f : FromId) :
  (g.placeOuter list n f).Nodup
  := by
  induction n generalizing f with
  | zero => exact List.nodup_singleton f
  | succ n ih =>
    rw [placeOuter]
    have hchild : ∀ c ∈ list.filter (g.outerParent list · == some f), g.OuterChild list f c :=
      fun c hc => by simpa [OuterChild] using (List.mem_filter.mp hc).2
    refine List.Nodup.cons ?_ (List.nodup_flatMap.mpr ⟨fun c _ => ih c, ?_⟩)
    · intro hf
      obtain ⟨c, hc, hfc⟩ := List.mem_flatMap.mp hf
      exact not_transGen_outerChild hwf f
        (Relation.TransGen.head' (hchild c hc) (mem_placeOuter hfc).1)
    · refine (hl.filter _).pairwise_of_forall_ne fun c₁ h₁ c₂ h₂ hne y hy₁ hy₂ => ?_
      rcases outerChild_total (mem_placeOuter hy₁).1 (mem_placeOuter hy₂).1 with h | h
      · exact not_reflTransGen_sibling hwf (hchild c₁ h₁) (hchild c₂ h₂) hne h
      · exact not_reflTransGen_sibling hwf (hchild c₂ h₂) (hchild c₁ h₁) (Ne.symm hne) h

end Outer

/-- The FROM list that `reorderOuter` builds holds items of the old one, each once. -/
theorem nodup_reorderOuter (hwf : WellFounded g.JoinParent) {list : List FromId}
    (hl : list.Nodup) (n : Nat) :
  ((list.filter fun f => (g.outerParent list f).isNone).flatMap (g.placeOuter list n)).Nodup ∧
    ∀ y ∈ (list.filter fun f => (g.outerParent list f).isNone).flatMap (g.placeOuter list n),
      y ∈ list
  := by
  have hroot : ∀ r ∈ list.filter (fun f => (g.outerParent list f).isNone),
      r ∈ list ∧ ∀ p, ¬ g.OuterChild list p r := by
    intro r hr
    obtain ⟨hrl, hnone⟩ := List.mem_filter.mp hr
    refine ⟨hrl, fun p hp => ?_⟩
    rw [OuterChild] at hp
    simp [hp] at hnone
  refine ⟨List.nodup_flatMap.mpr ⟨fun r _ => nodup_placeOuter hwf hl n r, ?_⟩, ?_⟩
  · refine (hl.filter _).pairwise_of_forall_ne fun r₁ h₁ r₂ h₂ hne y hy₁ hy₂ => ?_
    have hbelow : ∀ a b, a ≠ b → (∀ p, ¬ g.OuterChild list p b) →
        ¬ Relation.ReflTransGen (g.OuterChild list) a b := by
      intro a b hab hb h
      rcases h.cases_tail with rfl | ⟨z, -, hzb⟩
      · exact hab rfl
      · exact hb z hzb
    rcases outerChild_total (mem_placeOuter hy₁).1 (mem_placeOuter hy₂).1 with h | h
    · exact hbelow r₁ r₂ hne (hroot r₂ h₂).2 h
    · exact hbelow r₂ r₁ (Ne.symm hne) (hroot r₁ h₁).2 h
  · intro y hy
    obtain ⟨r, hr, hyr⟩ := List.mem_flatMap.mp hy
    rcases (mem_placeOuter hyr).2 with rfl | hyl
    · exact (hroot y hr).1
    · exact hyl

namespace WellFormed

/-- Rewriting the expressions of a block by a map that keeps them within the graph keeps a
graph well-formed. -/
theorem mapExprs (hg : g.WellFormed) (q : QueryId) (f : Expr → Expr)
    (hf : ∀ e, e.Within g.extent → (f e).Within g.extent) :
  (g.modifyBlock q (Block.mapExprs f)).WellFormed
  := by
  apply hg.modifyBlock q _ rfl rfl (hg.fromList q) (hg.fromNodup q)
  · rw [Block.expressions_mapExprs]
    intro e he
    obtain ⟨x, hx, rfl⟩ := List.mem_map.mp he
    exact hf x (hg.exprs q x hx)
  · intro s hs
    obtain ⟨s', hs', hfe⟩ := Body.mapExprs_eq_select hs
    rw [hfe]
    exact hg.fetches q s' hs'

/-- A filter within the graph added to a block keeps a graph well-formed. -/
theorem pushFilter (hg : g.WellFormed) (q : QueryId) {e : Expr} (he : e.Within g.extent) :
  (g.pushFilter q e).WellFormed
  := by
  unfold Graph.pushFilter
  apply hg.modifyBlock
  · split <;> rfl
  · split <;> rfl
  · split <;> exact hg.fromList q
  · split <;> exact hg.fromNodup q
  · split
    · exact hg.exprs q
    · intro x hx
      simp only [Block.expressions, List.mem_append, List.mem_singleton] at hx
      rcases hx with (hx | rfl) | hx
      · exact hg.exprs q x (by simp [Block.expressions, hx])
      · exact he
      · exact hg.exprs q x (by simp [Block.expressions, hx])
  · split <;> exact hg.fetches q

/-- Changing an item's flags, keeping its index, block and join, keeps a graph well-formed. -/
theorem modifyItem_sameJoin (hg : g.WellFormed) (f : FromId) (h : FromItem → FromItem)
    (hid : ∀ i, (h i).id = i.id) (howner : ∀ i, (h i).owner = i.owner)
    (hj : ∀ i, (h i).join = i.join) :
  (g.modifyItem f h).WellFormed
  := by
  refine hg.modifyItem f h (hid _) (howner _) (fun j hjj => ?_) ?_
  · rw [hj] at hjj
    exact hg.join f j hjj
  · rw [joinParent_modifyItem (by rw [hj])]
    exact hg.acyclic

/-! ### Absorbing joins -/

/-- A join that `canAbsorb` accepts does not close a cycle: its target is not above its
parent. -/
theorem not_reflTransGen_of_canAbsorb (hg : g.WellFormed) {q : QueryId} {l : Link}
    {extra : Option Expr} (h : g.canAbsorb q l extra = true) :
  ¬ Relation.ReflTransGen g.JoinParent l.target l.parent
  := by
  intro hr
  have hreach : g.parentsReach l.target (g.items.size + 1) l.parent = true := by
    rw [parentsReach_eq, decide_eq_true_eq]
    exact (mem_ancestors_iff hg.acyclic).mpr hr
  simp [canAbsorb, hreach] at h

/-- Absorbing a join that `canAbsorb` accepts into its target keeps a graph well-formed. -/
theorem absorb (hg : g.WellFormed) {q : QueryId} {l : Link} {extra : Option Expr}
    (hl : l.Within g.extent) (hx : ∀ x ∈ extra, x.Within g.extent)
    (hcan : g.canAbsorb q l extra = true) :
  (g.modifyItem l.target fun i => { i with semantics := .inner, join := some ⟨l, extra⟩ }).WellFormed
  := by
  refine hg.modifyItem _ _ rfl rfl ?_ ?_
  · rintro j ⟨⟩
    exact ⟨rfl, hl.1, hx⟩
  · refine wellFounded_addStep (t := l.target) (p := l.parent) hg.acyclic ?_
      (hg.not_reflTransGen_of_canAbsorb hcan)
    rintro p f ⟨j, hj, rfl⟩
    rw [item_modifyItem] at hj
    split at hj
    · rename_i hf
      cases hj
      exact Or.inr ⟨FromId.ext_idx hf.1, rfl⟩
    · exact Or.inl ⟨j, hj, rfl⟩

/-- A block's WHERE condition replaced by a conjunction of parts within the graph keeps a graph
well-formed. -/
theorem withWhere (hg : g.WellFormed) (q : QueryId) {ps : List Expr}
    (hps : ∀ p ∈ ps, p.Within g.extent) :
  (g.modifyBlock q fun b => { b with body := b.body.withWhere (Expr.andAll ps) }).WellFormed
  := by
  apply hg.modifyBlock q _ rfl rfl (hg.fromList q) (hg.fromNodup q)
  · intro e he
    simp only [Block.expressions, List.mem_append] at he
    rcases he with he | he
    · exact hg.exprs q e (by simp [Block.expressions, he])
    · rcases Body.mem_expressions_withWhere he with he | he
      · exact hg.exprs q e (by simp [Block.expressions, he])
      · exact Expr.within_andAll hps e he
  · intro s hs
    obtain ⟨s', hs', hfe⟩ := Body.withWhere_eq_select hs
    rw [hfe]
    exact hg.fetches q s' hs'

/-- Absorbing the joins of a block's WHERE conjunction and writing the joins left in its
expressions as predicates keeps a graph well-formed. -/
theorem absorbJoins (hg : g.WellFormed) (q : QueryId) : (g.absorbJoins q).WellFormed := by
  unfold Graph.absorbJoins
  dsimp only
  apply WellFormed.mapExprs _ q _ fun e he => Expr.Within.replaceJoins e he
  split
  · exact hg
  · rename_i w hw
    have hconj : ∀ c ∈ w.conjuncts, c.Within g.extent :=
      Expr.Within.conjuncts (hg.exprs q w (mem_expressions_of_whereClause hw))
    generalize hfold : List.foldl _ (g, []) w.conjuncts = r
    obtain ⟨g', kept⟩ := r
    let M := fun acc : Graph × List Expr => acc.1.WellFormed ∧ acc.1.extent = g.extent ∧
      acc.1.blocks = g.blocks ∧ ∀ e ∈ acc.2, e.Within g.extent
    have hM : M (g', kept) := by
      rw [← hfold]
      refine List.foldlRecOn (motive := M) w.conjuncts _ ⟨hg, rfl, rfl, by simp⟩ ?_
      rintro ⟨g1, kept1⟩ ⟨hs, hx, hb, hkept⟩ c hc
      dsimp only at hs hx hb hkept ⊢
      have hcw := hconj c hc
      have hkeep : ∀ e ∈ kept1 ++ [c], e.Within g.extent := by
        simpa [or_imp, forall_and] using ⟨hkept, hcw⟩
      split
      · rename_i l extra
        obtain ⟨hl, hextra⟩ := Expr.within_join.mp hcw
        split
        · rename_i hcan
          refine ⟨hs.absorb (hx ▸ hl) (hx ▸ hextra) hcan, by simp [hx], by simp [hb], hkept⟩
        · exact ⟨hs, hx, hb, hkeep⟩
      · exact ⟨hs, hx, hb, hkeep⟩
    obtain ⟨hs, hx, -, hkept⟩ := hM
    exact hs.withWhere q (hx ▸ hkept)

/-! ### Removing joins -/

/-- Rewriting the columns of an item's join filter, by a map that keeps columns within the graph,
keeps a graph well-formed. -/
theorem mapJoinColumns (hg : g.WellFormed) (i : FromId) {h : ColumnRef → ColumnRef}
    (hh : ∀ c, c.Within g.extent → (h c).Within g.extent) :
  (g.modifyItem i fun item =>
    match item.join with
    | some j =>
      match j.extra with
      | some x => { item with join := some { j with extra := some (x.mapColumns h) } }
      | none => item
    | none => item).WellFormed
  := by
  refine hg.modifyItem i _ ?_ ?_ ?_ ?_
  · split <;> (try split) <;> rfl
  · split <;> (try split) <;> rfl
  · intro j' hj'
    split at hj'
    · rename_i j hj
      split at hj'
      · rename_i x hx
        cases hj'
        obtain ⟨ht, hp, hextra⟩ := hg.join i j hj
        refine ⟨ht, hp, fun y hy => ?_⟩
        rw [Option.mem_some_iff] at hy
        rw [← hy]
        exact Expr.Within.mapColumns hh x (hextra x hx)
      · exact hg.join i j' hj'
    · exact hg.join i j' hj'
  · rw [joinParent_modifyItem]
    · exact hg.acyclic
    · split <;> (try split) <;> simp_all

/-- Rewriting the columns of a block and of the blocks below it, by a map that keeps columns
within the graph, keeps a graph well-formed, and keeps its extent and the blocks of its items. -/
theorem mapColumnsBelow (hg : g.WellFormed) (q : QueryId) {h : ColumnRef → ColumnRef}
    (hh : ∀ c, c.Within g.extent → (h c).Within g.extent) :
  (g.mapColumnsBelow q h).WellFormed ∧ (g.mapColumnsBelow q h).extent = g.extent ∧
    ∀ f, ((g.mapColumnsBelow q h).item f).owner = (g.item f).owner
  := by
  unfold Graph.mapColumnsBelow
  let M := fun g' : Graph => g'.WellFormed ∧ g'.extent = g.extent ∧
    ∀ f, (g'.item f).owner = (g.item f).owner
  refine List.foldlRecOn (motive := M) _ _ ⟨hg, rfl, fun _ => rfl⟩ ?_
  rintro g1 ⟨h1, hx1, ho1⟩ b _
  have h1' := h1.mapExprs b (·.mapColumns h) (Expr.Within.mapColumns (hx1 ▸ hh))
  refine List.foldlRecOn (motive := M) _ _ ⟨h1', by simp [hx1], by simpa using ho1⟩ ?_
  rintro g2 ⟨h2, hx2, ho2⟩ i _
  refine ⟨h2.mapJoinColumns i (hx2 ▸ hh), by simp [hx2], fun f => ?_⟩
  rw [item_modifyItem]
  split
  · rename_i hfi
    obtain rfl := FromId.ext_idx hfi.1
    split <;> (try split) <;> exact ho2 f
  · exact ho2 f

/-- The test that a column of an item the graph has is not NULL is within the graph. -/
theorem within_notNull {f : FromId} (hf : f.idx < g.items.size) (column : String) :
  (notNull f column).Within g.extent
  := hf

/-- Tests that columns of an item the graph has are not NULL, added to a block, keep a graph
well-formed. -/
theorem pushNotNulls (hg : g.WellFormed) (q : QueryId) {f : FromId} (hf : f.idx < g.items.size)
    (columns : List String) :
  (columns.foldl (fun g column => g.pushFilter q (notNull f column)) g).WellFormed ∧
    (columns.foldl (fun g column => g.pushFilter q (notNull f column)) g).extent = g.extent ∧
    ∀ x, (((columns.foldl (fun g column => g.pushFilter q (notNull f column)) g).item x).owner =
      (g.item x).owner)
  := by
  let M := fun g' : Graph => g'.WellFormed ∧ g'.extent = g.extent ∧
    ∀ x, (g'.item x).owner = (g.item x).owner
  refine List.foldlRecOn (motive := M) _ _ ⟨hg, rfl, fun _ => rfl⟩ ?_
  rintro g1 ⟨h1, hx1, ho1⟩ column _
  refine ⟨h1.pushFilter q (within_notNull (g := g1) ?_ column), ?_, ?_⟩
  · rw [← extent_items, hx1]
    exact hf
  · simp [Graph.pushFilter, hx1]
  · simpa [Graph.pushFilter] using ho1

/-- A FROM list cut down to some of its items keeps a graph well-formed. -/
theorem filterFrom (hg : g.WellFormed) (q : QueryId) (p : FromId → Bool) :
  (g.modifyBlock q fun b => { b with fromList := b.fromList.filter p }).WellFormed
  := by
  apply hg.modifyBlock q _ rfl rfl
  · intro f hf
    exact hg.fromList q f (List.mem_of_mem_filter hf)
  · exact (hg.fromNodup q).filter p
  · exact hg.exprs q
  · exact hg.fetches q

/-- Dropping a joined target keeps a graph well-formed: its columns are read from its parent,
an item the graph has. -/
theorem eliminateTarget (hg : g.WellFormed) (q : QueryId) (f : FromId) :
  (g.eliminateTarget q f).WellFormed
  := by
  unfold Graph.eliminateTarget
  dsimp only
  split
  · exact hg
  · rename_i j hj
    have hp := (hg.join f j hj).2.1
    generalize hG : g.mapColumnsBelow q _ = G
    obtain ⟨hm, hx, -⟩ : G.WellFormed ∧ G.extent = g.extent ∧ _ :=
      hG ▸ hg.mapColumnsBelow q (by
        intro c hc
        split
        · split
          · exact hp
          · exact hc
        · exact hc)
    have hdrop := hm.filterFrom q (· != f)
    split
    · refine (hdrop.pushNotNulls q ?_ _).1
      simp only [items_modifyBlock, ← extent_items, hx]
      exact hp
    · exact hdrop

/-- Replacing a root by its to-many child keeps a graph well-formed when the child belongs to
the block: the child leaves its own place in the FROM list and takes the root's. -/
theorem eliminateParent (hg : g.WellFormed) (q : QueryId) (f child : FromId)
    (hchild : (g.item child).owner = q) :
  (g.eliminateParent q f child).WellFormed
  := by
  unfold Graph.eliminateParent
  split
  · exact hg
  · rename_i j hj
    dsimp only
    have hc : child.idx < g.items.size := lt_of_join hj
    have h1 : (g.modifyItem child fun i => { i with join := none }).WellFormed := by
      refine hg.modifyItem _ _ rfl rfl (fun j' hj' => nomatch hj') ?_
      refine Subrelation.wf (fun {p x} hpx => ?_) hg.acyclic
      obtain ⟨j', hj', rfl⟩ := hpx
      rw [item_modifyItem] at hj'
      split at hj'
      · cases hj'
      · exact ⟨j', hj', rfl⟩
    generalize hG : (g.modifyItem child _).mapColumnsBelow q _ = G
    obtain ⟨h2, hx2, ho2⟩ : G.WellFormed ∧ G.extent = _ ∧ ∀ x, (G.item x).owner = _ :=
      hG ▸ h1.mapColumnsBelow q (by
        intro c hc'
        split
        · split
          · simp only [ColumnRef.Within, extent_modifyItem, extent_items]
            exact hc
          · exact hc'
        · exact hc')
    have hGc : (G.item child).owner = q := by
      rw [ho2, item_modifyItem]
      split <;> simp [hchild]
    have h3 : (G.modifyBlock q fun b =>
        { b with fromList := (b.fromList.filter (· != child)).map fun i =>
            if i == f then child else i }).WellFormed := by
      apply h2.modifyBlock q _ rfl rfl
      · intro x hx
        obtain ⟨y, hy, rfl⟩ := List.mem_map.mp hx
        have hy' := h2.fromList q y (List.mem_of_mem_filter hy)
        split
        · refine ⟨?_, hGc⟩
          rw [← extent_items, hx2, extent_modifyItem]
          exact hc
        · exact hy'
      · refine List.Nodup.map_on ?_ ((h2.fromNodup q).filter _)
        intro x hx y hy hxy
        have hxc : x ≠ child := by simpa using (List.mem_filter.mp hx).2
        have hyc : y ≠ child := by simpa using (List.mem_filter.mp hy).2
        by_cases hxf : x = f <;> by_cases hyf : y = f <;> simp_all
      · exact h2.exprs q
      · exact h2.fetches q
    have hc3 : child.idx < G.items.size := by
      rw [← extent_items, hx2, extent_modifyItem]
      exact hc
    obtain ⟨h4, hx4, -⟩ := h3.pushNotNulls q hc3 j.link.targetColumns
    split
    · rename_i x hx
      apply h4.pushFilter q
      rw [hx4, extent_modifyBlock, hx2, extent_modifyItem]
      exact (hg.join child j hj).2.2 x hx
    · exact h4

/-- Removing one item keeps a graph well-formed. -/
theorem eliminateOne (hg : g.WellFormed) (q : QueryId) {g' : Graph}
    (h : g.eliminateOne q = some g') :
  g'.WellFormed
  := by
  obtain ⟨f, -, ⟨-, rfl⟩ | ⟨c, hc, rfl⟩⟩ := eliminateOne_cases h
  · exact hg.eliminateTarget q f
  · exact hg.eliminateParent q f c (owner_of_unusedParent hc)

/-- Removing items until none can go keeps a graph well-formed. -/
theorem eliminateJoins (hg : g.WellFormed) (q : QueryId) : (g.eliminateJoins q).WellFormed :=
  eliminateJoins_preserves WellFormed q (fun _ _ h₁ h => h₁.eliminateOne q h) hg

/-! ### Deciding joins -/

/-- Deciding inner and outer joins changes no join, so it keeps a graph well-formed. -/
theorem inferSemantics (hg : g.WellFormed) (q : QueryId) : (g.inferSemantics q).WellFormed :=
  inferSemantics_preserves WellFormed
    (fun _ f _ h => h.modifyItem_sameJoin f _ (fun _ => rfl) (fun _ => rfl) (fun _ => rfl)) hg q

/-- Placing outer joins after their parents keeps a graph well-formed. -/
theorem reorderOuter (hg : g.WellFormed) (q : QueryId) : (g.reorderOuter q).WellFormed := by
  unfold Graph.reorderOuter
  dsimp only
  obtain ⟨hnodup, hsub⟩ := nodup_reorderOuter hg.acyclic (hg.fromNodup q)
    ((g.block q).fromList.length + 1)
  apply hg.modifyBlock q _ rfl rfl
  · exact fun f hf => hg.fromList q f (hsub f hf)
  · exact hnodup
  · exact hg.exprs q
  · exact hg.fetches q

/-- The correlated graph of a well-formed graph is well-formed: the items moved are items of
block `q` after its first, which the new block lists in their order, and the two parts of a FROM
list that holds each item once share none. -/
theorem correlated (hg : g.WellFormed) {q : QueryId} (hq : q.idx < g.blocks.size) :
  (g.correlated q).WellFormed
  := by
  have hnodup := hg.fromNodup q
  have hjl : ∀ x ∈ g.bulkJoined q, x ∈ (g.block q).fromList :=
    fun x hx => List.mem_of_mem_drop hx
  have hx : g.extent ≤ (g.correlated q).extent := by
    simp [Extent.le_iff, extent]
  obtain ⟨hkept, hbulk⟩ := expressions_correlated (Expr.Within (g.correlated q).extent)
    (fun _ => Expr.Within.conjuncts) (fun _ => Expr.within_andAll)
    (fun e he => Expr.Within.mono hx e (hg.exprs q e he)) trivial (by simp [Expr.Within, extent])
  refine ⟨fun x hx' => ?_, fun b hb => ?_, fun x hx' => ?_, fun x j hj => ?_, fun b p hp => ?_,
    fun b x hx' => ?_, fun b => ?_, fun b e he => ?_, fun b s hs y hy => ?_, ?_⟩
  · rw [id_item_correlated]
    exact hg.itemId x (by simpa using hx')
  · rw [block_correlated hq]
    split_ifs with hbq hbs
    · subst hbq
      exact hg.blockId b hq
    · exact QueryId.ext_idx hbs.symm
    · exact hg.blockId b (by simp only [size_blocks_correlated] at hb; omega)
  · rw [owner_item_correlated, size_blocks_correlated]
    split
    · exact Nat.lt_succ_self _
    · exact Nat.lt_succ_of_lt (hg.owner x (by simpa using hx'))
  · rw [join_item_correlated] at hj
    obtain ⟨ht, hp, hextra⟩ := hg.join x j hj
    exact ⟨ht, by simpa using hp, fun y hy => Expr.Within.mono hx y (hextra y hy)⟩
  · rw [block_correlated hq] at hp
    split_ifs at hp with hbq hbs
    · subst hbq
      exact hg.parent b p hp
    · cases hp
      rw [hbs]
      exact hq
    · exact hg.parent b p hp
  · rw [owner_item_correlated, size_items_correlated]
    rw [block_correlated hq] at hx'
    split_ifs at hx' with hbq hbs
    · subst hbq
      obtain ⟨hr, ho⟩ := hg.fromList b x (List.mem_of_mem_take hx')
      rw [if_neg fun hm => not_mem_bulkJoined hnodup hx' hm.1]
      exact ⟨hr, ho⟩
    · obtain rfl : b = ⟨g.blocks.size⟩ := QueryId.ext_idx hbs
      have hr := (hg.fromList q x (hjl x hx')).1
      rw [if_pos ⟨hx', hr⟩]
      exact ⟨hr, rfl⟩
    · obtain ⟨hr, ho⟩ := hg.fromList b x hx'
      have hmoved : ¬(x ∈ g.bulkJoined q ∧ x.idx < g.items.size) :=
        fun hm => hbq (ho.symm.trans (hg.fromList q x (hjl x hm.1)).2)
      rw [if_neg hmoved]
      exact ⟨hr, ho⟩
  · rw [block_correlated hq]
    split_ifs
    · exact hnodup.sublist (List.take_sublist 1 _)
    · exact hnodup.sublist (List.drop_sublist 1 _)
    · exact hg.fromNodup b
  · rw [block_correlated hq] at he
    split_ifs at he
    · exact hkept e he
    · exact hbulk e he
    · exact Expr.Within.mono hx e (hg.exprs b e he)
  · rw [size_items_correlated]
    rw [block_correlated hq] at hs
    split_ifs at hs
    · obtain ⟨s', hs', hfe⟩ := Body.withWhere_eq_select hs
      rw [hfe] at hy
      exact hg.fetches q s' hs' y hy
    · cases hs
      cases hy
    · exact hg.fetches b s hs y hy
  · show WellFounded (g.correlated q).JoinParent
    have hjoins : (g.correlated q).JoinParent = g.JoinParent := by
      funext p x
      simp only [JoinParent, join_item_correlated]
    rw [hjoins]
    exact hg.acyclic

/-- Moving the joins of an UPDATE or DELETE into a correlated sub-query keeps a graph
well-formed. -/
theorem correlateBulkJoins (hg : g.WellFormed) (q : QueryId) {g' : Graph}
    (h : g.correlateBulkJoins q = .ok g') :
  g'.WellFormed
  := by
  rcases correlateBulkJoins_eq_ok h with rfl | ⟨-, hq, -, rfl⟩
  · exact hg
  · exact hg.correlated hq

/-! ### The optimizer -/

/-- Optimizing one block keeps a graph well-formed. -/
theorem optimizeBlock (hg : g.WellFormed) (q : QueryId) {g' : Graph}
    (h : g.optimizeBlock q = .ok g') :
  g'.WellFormed
  := by
  unfold Graph.optimizeBlock at h
  exact ((((hg.absorbJoins q).eliminateJoins q).inferSemantics q).reorderOuter q).correlateBulkJoins
    q h

/-- The optimizer keeps a graph well-formed: it runs the passes block by block, each of which
does. -/
theorem optimize (hg : g.WellFormed) {g' : Graph} (h : g.optimize = .ok g') : g'.WellFormed :=
  optimize_preserves Graph.WellFormed (fun _ q _ h₁ h₂ => h₁.optimizeBlock q h₂) hg h

end WellFormed

end Graph

end EntityQuery
