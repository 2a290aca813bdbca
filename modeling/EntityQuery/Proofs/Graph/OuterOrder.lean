import Mathlib
import EntityQuery.Proofs.Graph.JoinOrder
import EntityQuery.Proofs.Graph.Placed

/-!
# Every optimized block has its outer joins in order

A FROM list is in join order (`Graph.JoinOrdered`) when every outer item stands after its join
parent with only outer items below the parent between them. `reorderOuter` puts a list in that
order when the parent of each outer item is in the list (`Graph.joinOrdered_reorderOuter`), and
the passes before it see to that: reading places every item in its block's list, absorbing
joins only joins items of the block, removing an item keeps in the list every parent of the
block that a listed item joins, and deciding the joins makes every join to an item of an
enclosing block inner.

The optimizer does the blocks one at a time, the last made first, and a pass on one block
changes nothing the order of another block reads (`Graph.SameOutside`). So the invariant
`Graph.JoinsPlaced g pending done` says that the blocks not yet done (below `pending`) hold all
their items, and those done (from `done` on) are in join order; optimizing block `q` takes it
from `q + 1` to `q` (`Graph.JoinsPlaced.optimizeBlock`), and the graph the optimizer gives has
every block in join order (`Graph.joinOrdered_optimize`).
-/

namespace EntityQuery

/-- The change `Graph.mapColumnsBelow` makes to an item: the columns of its join filter go
through `h`. -/
def FromItem.mapJoinFilter (h : ColumnRef → ColumnRef) (item : FromItem) : FromItem :=
  match item.join with
  | some j =>
    match j.extra with
    | some x => { item with join := some { j with extra := some (x.mapColumns h) } }
    | none => item
  | none => item

namespace FromItem

variable (h : ColumnRef → ColumnRef) (i : FromItem)

/-- Mapping the columns of a join filter keeps the item's block, whether it is outer and the
link of its join. -/
theorem mapJoinFilter_shape :
  (i.mapJoinFilter h).owner = i.owner ∧ (i.mapJoinFilter h).isOuter = i.isOuter ∧
    (i.mapJoinFilter h).join.map Join.link = i.join.map Join.link
  := by
  unfold mapJoinFilter
  split
  · split <;> simp_all [isOuter]
  · exact ⟨rfl, rfl, rfl⟩

end FromItem

namespace Graph

variable {g g' : Graph} {list : List FromId}

/-! ### Join order -/

/-- Every outer item of `list` stands after its join parent, with only outer items below the
parent between them. -/
def JoinOrdered (g : Graph) (list : List FromId) : Prop :=
  ∀ c ∈ list, (g.item c).isOuter → ∃ j, (g.item c).join = some j ∧
    ∃ pre mid post, list = pre ++ j.link.parent :: mid ++ c :: post ∧
      ∀ y ∈ mid, Relation.TransGen (g.OuterChild list) j.link.parent y ∧ (g.item y).isOuter

/-- The parent of every outer item of `list` is in `list`. -/
def OuterParentsListed (g : Graph) (list : List FromId) : Prop :=
  ∀ c ∈ list, (g.item c).isOuter → ∃ j, (g.item c).join = some j ∧ j.link.parent ∈ list

/-- Two graphs agree on the items of `list` as far as outer joins go: which are outer, and the
link of each join. -/
def SameOuter (g g' : Graph) (list : List FromId) : Prop :=
  ∀ x ∈ list, (g'.item x).isOuter = (g.item x).isOuter ∧
    (g'.item x).join.map Join.link = (g.item x).join.map Join.link

/-- The outer parent of an item reads only whether it is outer and the link of its join. -/
theorem outerParent_eq (x : FromId) :
  g.outerParent list x = if (g.item x).isOuter then
    ((g.item x).join.map Join.link).bind fun l => if l.parent ∈ list then some l.parent else none
    else none
  := by
  unfold outerParent
  dsimp only
  split
  · rename_i hout
    simp only [Bool.not_eq_eq_eq_not, Bool.not_true] at hout
    simp [hout]
  · rename_i hout
    simp only [Bool.not_eq_eq_eq_not, Bool.not_true, Bool.not_eq_false] at hout
    rw [if_pos hout]
    cases (g.item x).join <;> simp

/-- Lists with the same items have the same outer parents. -/
theorem outerParent_perm {l₁ l₂ : List FromId} (h : l₁.Perm l₂) :
  g.outerParent l₁ = g.outerParent l₂
  := by
  funext x
  simp only [outerParent_eq, h.mem_iff]

theorem outerParent_of_sameOuter (h : g.SameOuter g' list) {x : FromId} (hx : x ∈ list) :
  g'.outerParent list x = g.outerParent list x
  := by
  obtain ⟨hout, hlink⟩ := h x hx
  rw [outerParent_eq, outerParent_eq, hout, hlink]

/-- A chain of outer joins down to an item of the list runs through items of the list, so it is
a chain in any graph that agrees on them. -/
theorem transGen_of_sameOuter (h : g.SameOuter g' list) {p y : FromId} (hy : y ∈ list)
    (hpy : Relation.TransGen (g.OuterChild list) p y) :
  Relation.TransGen (g'.OuterChild list) p y
  := by
  induction hpy with
  | single hpc => exact .single ((outerParent_of_sameOuter h hy).trans hpc)
  | tail _ hbc ih =>
    exact .tail (ih (mem_of_outerChild hbc)) ((outerParent_of_sameOuter h hy).trans hbc)

namespace JoinOrdered

/-- The order of outer joins reads only the items of the list. -/
theorem of_sameOuter (h : g.JoinOrdered list) (hs : g.SameOuter g' list) : g'.JoinOrdered list := by
  intro c hc hout
  obtain ⟨hout', hlink⟩ := hs c hc
  obtain ⟨j, hj, pre, mid, post, hsplit, hmid⟩ := h c hc (hout' ▸ hout)
  obtain ⟨j', hj', hjj⟩ : ∃ j', (g'.item c).join = some j' ∧ j'.link = j.link := by
    rw [hj] at hlink
    cases hc' : (g'.item c).join with
    | none => simp [hc'] at hlink
    | some j' => exact ⟨j', rfl, by simpa [hc'] using hlink⟩
  refine ⟨j', hj', pre, mid, post, by rw [hjj]; exact hsplit, fun y hy => ?_⟩
  have hyl : y ∈ list := by
    rw [hsplit]
    simp [hy]
  obtain ⟨hpy, hyo⟩ := hmid y hy
  rw [hjj]
  exact ⟨transGen_of_sameOuter hs hyl hpy, (hs y hyl).1 ▸ hyo⟩

/-- A list with no outer item is in join order. -/
theorem of_not_outer (h : ∀ x ∈ list, (g.item x).isOuter = false) : g.JoinOrdered list :=
  fun c hc hout => absurd (h c hc) (by simp [hout])

/-- The first item of a list in join order, with no item twice, is not outer: its parent would
come before it. -/
theorem head_not_outer {x : FromId} {rest : List FromId} (h : g.JoinOrdered (x :: rest))
    (hnd : (x :: rest).Nodup) :
  (g.item x).isOuter = false
  := by
  by_contra hout
  obtain ⟨j, -, pre, mid, post, hsplit, -⟩ := h x List.mem_cons_self (by simpa using hout)
  have hx : x ∈ rest := by
    cases pre with
    | nil =>
      simp only [List.nil_append, List.cons_append, List.cons.injEq] at hsplit
      rw [hsplit.2]
      simp
    | cons a pre =>
      simp only [List.cons_append, List.append_assoc, List.cons.injEq] at hsplit
      rw [hsplit.2]
      simp
  exact (List.nodup_cons.mp hnd).1 hx

/-- The first item of a list in join order, alone, is in join order. -/
theorem take_one (h : g.JoinOrdered list) (hnd : list.Nodup) : g.JoinOrdered (list.take 1) := by
  cases list with
  | nil => exact of_not_outer (by simp)
  | cons x rest =>
    apply of_not_outer
    intro y hy
    simp only [List.take_succ_cons, List.take_zero, List.mem_singleton] at hy
    exact hy ▸ h.head_not_outer hnd

end JoinOrdered

/-- `reorderOuter` puts the FROM list of a block of a well-formed graph in join order when the
parent of each outer item is in the list. -/
theorem joinOrdered_reorderOuter (hg : g.WellFormed) {q : QueryId}
    (hl : g.OuterParentsListed (g.block q).fromList) :
  (g.reorderOuter q).JoinOrdered ((g.reorderOuter q).block q).fromList
  := by
  obtain ⟨hperm, -, hafter⟩ := reorderOuter_joinOrder hg q
  intro c hc hout
  rw [item_reorderOuter] at hout ⊢
  have hcl := hperm.subset hc
  obtain ⟨j, hj, hpl⟩ := hl c hcl hout
  have hpc : g.OuterChild (g.block q).fromList j.link.parent c := by
    simp [OuterChild, outerParent_eq, hout, hj, hpl]
  obtain ⟨pre, mid, post, hsplit, hmid⟩ := hafter _ c hcl hpc
  refine ⟨j, hj, pre, mid, post, hsplit, fun y hy => ?_⟩
  have hsame : (g.reorderOuter q).OuterChild ((g.reorderOuter q).block q).fromList =
      g.OuterChild (g.block q).fromList := by
    funext p y
    simp only [OuterChild]
    rw [show (g.reorderOuter q).outerParent = g.outerParent from rfl, outerParent_perm hperm]
  rw [hsame, item_reorderOuter]
  exact hmid y hy

/-! ### Changes confined to one block -/

/-- `g'` changes nothing of `g` that the join order of a block other than `q` reads: the items
keep their number and their blocks, the items of other blocks keep which are outer and the
links of their joins, and the other blocks keep their FROM lists. -/
structure SameOutside (q : QueryId) (g g' : Graph) : Prop where
  size : g'.items.size = g.items.size
  owner : ∀ x, (g'.item x).owner = (g.item x).owner
  outer : ∀ x, (g.item x).owner ≠ q → (g'.item x).isOuter = (g.item x).isOuter ∧
    (g'.item x).join.map Join.link = (g.item x).join.map Join.link
  fromList : ∀ b, b ≠ q → (g'.block b).fromList = (g.block b).fromList

namespace SameOutside

variable {q : QueryId} {g'' : Graph}

theorem refl (q : QueryId) (g : Graph) : SameOutside q g g :=
  ⟨rfl, fun _ => rfl, fun _ _ => ⟨rfl, rfl⟩, fun _ _ => rfl⟩

theorem trans (h₁ : SameOutside q g g') (h₂ : SameOutside q g' g'') : SameOutside q g g'' := by
  refine ⟨h₂.size.trans h₁.size, fun x => (h₂.owner x).trans (h₁.owner x), fun x hx => ?_,
    fun b hb => (h₂.fromList b hb).trans (h₁.fromList b hb)⟩
  obtain ⟨ho₁, hl₁⟩ := h₁.outer x hx
  obtain ⟨ho₂, hl₂⟩ := h₂.outer x (by rw [h₁.owner x]; exact hx)
  exact ⟨ho₂.trans ho₁, hl₂.trans hl₁⟩

/-- A change of one item that keeps its block, and keeps its join and whether it is outer
unless it belongs to `q`, is confined to `q`. -/
theorem modifyItem {f : FromId} {h : FromItem → FromItem} (howner : ∀ i, (h i).owner = i.owner)
    (hout : (g.item f).owner ≠ q → (h (g.item f)).isOuter = (g.item f).isOuter ∧
      (h (g.item f)).join.map Join.link = (g.item f).join.map Join.link) :
  SameOutside q g (g.modifyItem f h)
  := by
  refine ⟨size_items_modifyItem f h, fun x => ?_, fun x hx => ?_, fun b _ => rfl⟩
  · rw [item_modifyItem]
    split
    · rename_i hxf
      rw [FromId.ext_idx hxf.1]
      exact howner _
    · rfl
  · rw [item_modifyItem]
    split
    · rename_i hxf
      obtain rfl := FromId.ext_idx hxf.1
      exact hout hx
    · exact ⟨rfl, rfl⟩

/-- A change of block `q`, or of a block that keeps its FROM list, is confined to `q`. -/
theorem modifyBlock {b : QueryId} {h : Block → Block}
    (hb : b = q ∨ ∀ blk, (h blk).fromList = blk.fromList) :
  SameOutside q g (g.modifyBlock b h)
  := by
  refine ⟨rfl, fun _ => rfl, fun _ _ => ⟨rfl, rfl⟩, fun b' hb' => ?_⟩
  rw [block_modifyBlock]
  split
  · rename_i hbb
    rcases hb with rfl | hfrom
    · exact absurd (QueryId.ext_idx hbb.1) hb'
    · rw [hfrom, QueryId.ext_idx hbb.1]
  · rfl

end SameOutside

namespace OwnJoinFilters

theorem modifyBlock (hf : g.OwnJoinFilters) (b : QueryId) (h : Block → Block) :
  (g.modifyBlock b h).OwnJoinFilters
  := hf

/-- An item changed into one whose join (if any) is filtered by a test of the item keeps every
join filter a test of its own item. -/
theorem modifyItem (hf : g.OwnJoinFilters) {f : FromId} {h : FromItem → FromItem}
    (hjoin : ∀ j, (h (g.item f)).join = some j → ∀ x ∈ j.extra, x.IsDiscriminatorOf f) :
  (g.modifyItem f h).OwnJoinFilters
  := by
  intro x j hj
  rw [item_modifyItem] at hj
  split at hj
  · rename_i hxf
    obtain rfl := FromId.ext_idx hxf.1
    exact hjoin j hj
  · exact hf x j hj

end OwnJoinFilters

/-- A change to one block leaves every other block as it was. -/
theorem block_modifyBlock_of_ne {q b : QueryId} (h : Block → Block) (hb : b ≠ q) :
  (g.modifyBlock q h).block b = g.block b
  := by
  rw [block_modifyBlock, if_neg fun hbq => hb (QueryId.ext_idx hbq.1)]

/-- A filter added to a block leaves its FROM list alone. -/
theorem fromList_pushFilter (q : QueryId) (e : Expr) (b : QueryId) :
  ((g.pushFilter q e).block b).fromList = (g.block b).fromList
  := by
  unfold pushFilter
  rw [block_modifyBlock]
  split
  · rename_i hbq
    rw [QueryId.ext_idx hbq.1]
    split <;> rfl
  · rfl

/-- Filters added to a block leave the items and the FROM lists alone. -/
theorem foldl_pushFilter {α : Type} (q : QueryId) (e : α → Expr) (l : List α) (g : Graph) :
  (l.foldl (fun g a => g.pushFilter q (e a)) g).items = g.items ∧
    ∀ b, ((l.foldl (fun g a => g.pushFilter q (e a)) g).block b).fromList = (g.block b).fromList
  := by
  induction l generalizing g with
  | nil => exact ⟨rfl, fun _ => rfl⟩
  | cons a l ih =>
    obtain ⟨hitems, hfrom⟩ := ih (g.pushFilter q (e a))
    exact ⟨hitems, fun b => (hfrom b).trans (fromList_pushFilter q (e a) b)⟩

/-! ### Absorbing joins -/

/-- Absorbing the joins of block `q` joins only items of `q`, with no filter, and leaves every
FROM list alone. -/
theorem absorbJoins_frame (hf : g.OwnJoinFilters) (q : QueryId) :
  SameOutside q g (g.absorbJoins q) ∧ (g.absorbJoins q).OwnJoinFilters ∧
    ∀ b, ((g.absorbJoins q).block b).fromList = (g.block b).fromList
  := by
  let P := fun G : Graph => SameOutside q g G ∧ G.OwnJoinFilters ∧
    ∀ b, (G.block b).fromList = (g.block b).fromList
  have hblock : ∀ G (h : Block → Block), (∀ blk, (h blk).fromList = blk.fromList) → P G →
      P (G.modifyBlock q h) := by
    rintro G h hfrom ⟨hs, hG, hl⟩
    refine ⟨hs.trans (.modifyBlock (.inl rfl)), hG.modifyBlock q h, fun b => ?_⟩
    rw [block_modifyBlock]
    split
    · rename_i hbq
      rw [hfrom, hl q, QueryId.ext_idx hbq.1]
    · exact hl b
  unfold absorbJoins
  dsimp only
  refine hblock _ _ (fun _ => ?_) ?_
  · rfl
  split
  · exact ⟨.refl q g, hf, fun _ => rfl⟩
  · rename_i w _
    generalize hfold : List.foldl _ (g, []) w.conjuncts = r
    obtain ⟨G, kept⟩ := r
    refine hblock _ _ (fun _ => ?_) ?_
    · rfl
    have hM : P (G, kept).1 := by
      rw [← hfold]
      refine List.foldlRecOn (motive := fun acc : Graph × List Expr => P acc.1) w.conjuncts _
        ⟨.refl q g, hf, fun _ => rfl⟩ ?_
      rintro ⟨G1, kept1⟩ ⟨hs, hG, hl⟩ c _
      dsimp only
      split
      · rename_i l extra
        split
        · rename_i hcan
          simp only [canAbsorb, Bool.and_eq_true, beq_iff_eq, Option.isNone_iff_eq_none,
            Bool.not_eq_eq_eq_not, Bool.not_true] at hcan
          obtain ⟨⟨⟨howner, -⟩, hextra⟩, -⟩ := hcan
          refine ⟨hs.trans (.modifyItem (fun _ => rfl) fun hne => absurd howner hne), ?_,
            fun b => hl b⟩
          apply hG.modifyItem
          rintro j ⟨⟩ x hx
          rw [hextra] at hx
          cases hx
        · exact ⟨hs, hG, hl⟩
      · exact ⟨hs, hG, hl⟩
    exact hM

/-! ### Removing items -/

/-- The items of the FROM lists of the blocks that `mapColumnsBelow` walks change their join
filters only: whatever each change keeps of an item, the whole walk keeps. -/
theorem item_mapColumnsBelow {q : QueryId} {h : ColumnRef → ColumnRef}
    {P : FromId → FromItem → Prop} (hP : ∀ x i, P x i → P x (i.mapJoinFilter h))
    (hg : ∀ x, P x (g.item x)) (x : FromId) :
  P x ((g.mapColumnsBelow q h).item x)
  := by
  unfold mapColumnsBelow
  refine List.foldlRecOn (motive := fun G : Graph => ∀ x, P x (G.item x)) _ _ hg ?_ x
  intro G hG b _
  refine List.foldlRecOn (motive := fun G : Graph => ∀ x, P x (G.item x)) _ _ hG ?_
  intro G' hG' i _ x
  rw [item_modifyItem]
  split
  · rename_i hxi
    obtain rfl := FromId.ext_idx hxi.1
    exact hP x _ (hG' x)
  · exact hG' x

/-- `mapColumnsBelow` rewrites expressions and join filters, and leaves the FROM lists and the
number of items and of blocks alone. -/
theorem mapColumnsBelow_lists (q : QueryId) (h : ColumnRef → ColumnRef) :
  (g.mapColumnsBelow q h).items.size = g.items.size ∧
    (g.mapColumnsBelow q h).blocks.size = g.blocks.size ∧
    ∀ b, ((g.mapColumnsBelow q h).block b).fromList = (g.block b).fromList
  := by
  unfold mapColumnsBelow
  let M := fun G : Graph => G.items.size = g.items.size ∧ G.blocks.size = g.blocks.size ∧
    ∀ b, (G.block b).fromList = (g.block b).fromList
  refine List.foldlRecOn (motive := M) _ _ ⟨rfl, rfl, fun _ => rfl⟩ ?_
  rintro G ⟨hs, hbs, hl⟩ b _
  have hG : M (G.modifyBlock b (Block.mapExprs (Expr.mapColumns h))) := by
    refine ⟨hs, by rw [size_blocks_modifyBlock]; exact hbs, fun b' => ?_⟩
    rw [block_modifyBlock]
    split
    · rename_i hbb
      rw [QueryId.ext_idx hbb.1]
      exact hl b
    · exact hl b'
  refine List.foldlRecOn (motive := M) _ _ hG ?_
  rintro G' ⟨hs', hbs', hl'⟩ i _
  exact ⟨by rw [size_items_modifyItem]; exact hs', hbs', fun b' => hl' b'⟩

/-- `mapColumnsBelow` keeps the shape of every item: its block, whether it is outer and the link
of its join. -/
theorem mapColumnsBelow_shape (q : QueryId) (h : ColumnRef → ColumnRef) (x : FromId) :
  ((g.mapColumnsBelow q h).item x).owner = (g.item x).owner ∧
    ((g.mapColumnsBelow q h).item x).isOuter = (g.item x).isOuter ∧
    ((g.mapColumnsBelow q h).item x).join.map Join.link = (g.item x).join.map Join.link
  := by
  refine item_mapColumnsBelow (P := fun x i => i.owner = (g.item x).owner ∧
    i.isOuter = (g.item x).isOuter ∧ i.join.map Join.link = (g.item x).join.map Join.link)
    (fun x i hi => ?_) (fun x => ⟨rfl, rfl, rfl⟩) x
  obtain ⟨ho, hout, hl⟩ := FromItem.mapJoinFilter_shape h i
  exact ⟨ho.trans hi.1, hout.trans hi.2.1, hl.trans hi.2.2⟩

/-- A map that moves only the columns of `f` keeps each join filter a test of its own item, when
`f` has no join filter. -/
theorem OwnJoinFilters.mapColumnsBelow (hf : g.OwnJoinFilters) (q : QueryId)
    {h : ColumnRef → ColumnRef} {f : FromId} (hfix : ∀ c : ColumnRef, c.source ≠ f → h c = c)
    (hnone : ∀ j, (g.item f).join = some j → j.extra = none) :
  (g.mapColumnsBelow q h).OwnJoinFilters
  := by
  intro x
  refine item_mapColumnsBelow (P := fun x i => (∀ j, i.join = some j → ∀ e ∈ j.extra,
      e.IsDiscriminatorOf x) ∧ (x = f → ∀ j, i.join = some j → j.extra = none))
    (fun x i hi => ?_) (fun x => ⟨hf x, fun hx => hx ▸ hnone⟩) x |>.1
  obtain ⟨hdisc, hfnone⟩ := hi
  unfold FromItem.mapJoinFilter
  split
  · rename_i j hj
    split
    · rename_i e he
      have hxf : x ≠ f := fun hxf => by simp [hfnone hxf j hj] at he
      obtain ⟨column, value, rfl⟩ := hdisc j hj e he
      refine ⟨?_, fun hxf' => absurd hxf' hxf⟩
      rintro j' ⟨⟩ e' he'
      cases he'
      refine ⟨column, value, ?_⟩
      simp [Expr.mapColumns, Expr.col, hfix ⟨x, column⟩ hxf]
    · exact ⟨hdisc, hfnone⟩
  · exact ⟨hdisc, hfnone⟩

/-- The items of the FROM list of `q` whose join starts at an item of `q` have that item in the
list as well. -/
def JoinedListed (g : Graph) (q : QueryId) : Prop :=
  ∀ c ∈ (g.block q).fromList, ∀ j, (g.item c).join = some j →
    (g.item j.link.parent).owner = q → j.link.parent ∈ (g.block q).fromList

/-- An item of a FROM list joined to `p` is a child of `p`. -/
theorem mem_childrenOf {b : QueryId} {c : FromId} {j : Join} (hc : c ∈ (g.block b).fromList)
    (hj : (g.item c).join = some j) :
  c ∈ g.childrenOf j.link.parent
  := by
  unfold childrenOf
  refine List.mem_filter.mpr ⟨List.mem_flatMap.mpr ⟨g.block b, ?_, hc⟩, by simp [hj]⟩
  by_cases hb : b.idx < g.blocks.size
  · simp only [block, Array.getElem?_eq_getElem hb, Option.getD_some]
    exact Array.getElem_mem_toList hb
  · rw [block_eq_default (Nat.le_of_not_lt hb)] at hc
    cases hc

/-- A target that can go has a join with no filter, and no item joined to it. -/
theorem isUnusedTarget_spec {q : QueryId} {f : FromId} (h : g.isUnusedTarget q f = true) :
  ∃ j, (g.item f).join = some j ∧ j.extra = none ∧ g.childrenOf f = []
  := by
  unfold isUnusedTarget at h
  dsimp only at h
  split at h
  · cases h
  · rename_i j hj
    simp only [Bool.and_eq_true, Option.isNone_iff_eq_none, List.isEmpty_iff] at h
    exact ⟨j, hj, h.1.1.1.1.2, h.1.1.2⟩

/-- A root that can give way has no join, and one child, a joined item of the block. -/
theorem unusedParent_spec {q : QueryId} {f c : FromId} (h : g.unusedParent q f = some c) :
  (g.item f).join = none ∧ g.childrenOf f = [c] ∧ (g.item c).owner = q ∧
    ((g.item c).join).isSome
  := by
  have hcowner := owner_of_unusedParent h
  unfold unusedParent at h
  dsimp only at h
  split at h
  · cases h
  · rename_i hroot
    simp only [Bool.or_eq_true, not_or, Bool.not_eq_true, Option.isSome_eq_false_iff,
      Option.isNone_iff_eq_none] at hroot
    split at h
    · rename_i child hchildren
      split at h
      · cases h
      · rename_i j hj
        split at h
        · cases h
        · split at h
          · cases h
          · cases h
            exact ⟨hroot.1.1, hchildren, hcowner, by simp [hj]⟩
    · cases h

/-- Dropping a joined target reads the columns below the block through a map that leaves the
columns of every other item alone, takes the target out of the list and, for an inner join,
tests that the parent's link columns are not NULL. -/
theorem eliminateTarget_eq {q : QueryId} {f : FromId} {j : Join} (hj : (g.item f).join = some j) :
  ∃ h : ColumnRef → ColumnRef, (∀ c, c.source ≠ f → h c = c) ∧
    g.eliminateTarget q f =
      if (g.item f).semantics == .inner then
        j.link.parentColumns.foldl (fun g column => g.pushFilter q (notNull j.link.parent column))
          ((g.mapColumnsBelow q h).modifyBlock q fun b =>
            { b with fromList := b.fromList.filter (· != f) })
      else
        (g.mapColumnsBelow q h).modifyBlock q fun b =>
          { b with fromList := b.fromList.filter (· != f) }
  := by
  refine ⟨?h, ?fix, ?eq⟩
  case eq =>
    unfold eliminateTarget
    simp only [hj]
    rfl
  case fix =>
    intro c hc
    simp [hc]

/-- Replacing a root by its child takes the child's join away, reads the columns below the block
through a map that leaves the columns of every other item alone, puts the child in the root's
place and tests the child's link columns and the join's own filter. -/
theorem eliminateParent_eq {q : QueryId} {f c : FromId} {j : Join} (hj : (g.item c).join = some j) :
  ∃ h : ColumnRef → ColumnRef, (∀ col, col.source ≠ f → h col = col) ∧
    g.eliminateParent q f c =
      let G := ((g.modifyItem c fun i => { i with join := none }).mapColumnsBelow q h).modifyBlock q
        fun b => { b with fromList := (b.fromList.filter (· != c)).map fun i => if i == f then c else i }
      let G := j.link.targetColumns.foldl (fun g column => g.pushFilter q (notNull c column)) G
      j.extra.elim G (G.pushFilter q)
  := by
  refine ⟨?h, ?fix, ?eq⟩
  case eq =>
    unfold eliminateParent
    simp only [hj]
    cases j.extra <;> rfl
  case fix =>
    intro col hcol
    simp [hcol]

/-- Dropping a target that can go is confined to its block, keeps every join filter a test of
its own item, and keeps in the list every parent of the block that a listed item joins: no
listed item is joined to the target. -/
theorem eliminateTarget_frame {q : QueryId} {f : FromId} (hU : g.isUnusedTarget q f = true)
    (hf : g.OwnJoinFilters) (hl : g.JoinedListed q) :
  SameOutside q g (g.eliminateTarget q f) ∧ (g.eliminateTarget q f).OwnJoinFilters ∧
    (g.eliminateTarget q f).JoinedListed q
  := by
  obtain ⟨j, hj, hextra, hchildren⟩ := isUnusedTarget_spec hU
  obtain ⟨h, hfix, heq⟩ := eliminateTarget_eq (q := q) hj
  rw [heq]
  obtain ⟨hsize, hbsize, hlists⟩ := mapColumnsBelow_lists (g := g) q h
  let G := (g.mapColumnsBelow q h).modifyBlock q fun b =>
    { b with fromList := b.fromList.filter (· != f) }
  have hmem : ∀ c, c ∈ (G.block q).fromList → c ∈ (g.block q).fromList ∧ c ≠ f := by
    intro c hc
    simp only [G, block_modifyBlock] at hc
    split at hc
    · rw [← hlists q]
      simpa using hc
    · rename_i hout
      have hq : g.blocks.size ≤ q.idx := by
        rw [← hbsize]
        simpa using hout
      rw [hlists q, block_eq_default hq] at hc
      cases hc
  have hfinal : ∀ H : Graph, H.items = G.items → (∀ b, (H.block b).fromList = (G.block b).fromList) →
      SameOutside q g H ∧ H.OwnJoinFilters ∧ H.JoinedListed q := by
    intro H hitems hfrom
    have hitem : ∀ x, H.item x = (g.mapColumnsBelow q h).item x := fun x => by
      simp only [item, hitems, G, items_modifyBlock]
    refine ⟨⟨by rw [hitems]; exact hsize, fun x => by rw [hitem]; exact (mapColumnsBelow_shape q h x).1,
      fun x _ => by rw [hitem]; exact (mapColumnsBelow_shape q h x).2,
      fun b hb => ?_⟩, fun x j' hj' => ?_, fun c hc j' hj' hp => ?_⟩
    · rw [hfrom, ← hlists b]
      exact congrArg Block.fromList (block_modifyBlock_of_ne _ hb)
    · rw [hitem] at hj'
      exact hf.mapColumnsBelow q hfix (fun j'' hj'' => by rw [hj] at hj''; cases hj''; exact hextra)
        x j' hj'
    · rw [hfrom] at hc ⊢
      obtain ⟨hcl, hcf⟩ := hmem c hc
      obtain ⟨-, -, hlink⟩ := mapColumnsBelow_shape (g := g) q h c
      rw [← hitem, hj'] at hlink
      obtain ⟨j₀, hj₀, hjj⟩ : ∃ j₀, (g.item c).join = some j₀ ∧ j₀.link = j'.link := by
        cases hc' : (g.item c).join with
        | none => simp [hc'] at hlink
        | some j₀ => exact ⟨j₀, rfl, by simpa [hc'] using hlink.symm⟩
      have hpowner : (g.item j₀.link.parent).owner = q := by
        rw [hjj, ← (mapColumnsBelow_shape (g := g) q h _).1, ← hitem]
        exact hp
      have hpl := hl c hcl j₀ hj₀ hpowner
      have hpf : j₀.link.parent ≠ f := by
        intro hpf
        have := mem_childrenOf hcl hj₀
        rw [hpf, hchildren] at this
        cases this
      simp only [G, block_modifyBlock]
      split
      · rw [hlists q, ← hjj]
        simpa using ⟨hpl, hpf⟩
      · rename_i hout
        have hq : g.blocks.size ≤ q.idx := by
          rw [← hbsize]
          simpa using hout
        rw [block_eq_default hq] at hcl
        cases hcl
  split
  · exact hfinal _ (foldl_pushFilter q _ _ _).1 (foldl_pushFilter q _ _ _).2
  · exact hfinal _ rfl fun _ => rfl

/-- Replacing a root by its only child is confined to its block, keeps every join filter a test
of its own item, and keeps in the list every parent of the block that a listed item joins: the
child takes the root's place, and no other listed item is joined to the root. -/
theorem eliminateParent_frame {q : QueryId} {f c : FromId} (hU : g.unusedParent q f = some c)
    (hfl : f ∈ (g.block q).fromList) (hf : g.OwnJoinFilters) (hl : g.JoinedListed q) :
  SameOutside q g (g.eliminateParent q f c) ∧ (g.eliminateParent q f c).OwnJoinFilters ∧
    (g.eliminateParent q f c).JoinedListed q
  := by
  obtain ⟨hfjoin, hchildren, hcowner, hcjoin⟩ := unusedParent_spec hU
  obtain ⟨j, hj⟩ := Option.isSome_iff_exists.mp hcjoin
  have hfc : f ≠ c := fun hfc => by rw [hfc, hj] at hfjoin; cases hfjoin
  have hq : q.idx < g.blocks.size := by
    apply Nat.lt_of_not_le
    intro hout
    rw [block_eq_default hout] at hfl
    cases hfl
  obtain ⟨h, hfix, heq⟩ := eliminateParent_eq (q := q) (f := f) hj
  rw [heq]
  let G1 := g.modifyItem c fun i => { i with join := none }
  have hG1 : SameOutside q g G1 := .modifyItem (fun _ => rfl) fun hne => absurd hcowner hne
  have hf1 : G1.OwnJoinFilters := hf.modifyItem (by rintro j' ⟨⟩)
  have hitem1 : ∀ x, x ≠ c → G1.item x = g.item x := by
    intro x hx
    simp only [G1, item_modifyItem]
    rw [if_neg fun h => hx (FromId.ext_idx h.1)]
  have hjoin1 : (G1.item c).join = none := by
    simp [G1, item_modifyItem, lt_of_join hj]
  obtain ⟨hsize, hbsize, hlists⟩ := mapColumnsBelow_lists (g := G1) q h
  let G := (G1.mapColumnsBelow q h).modifyBlock q fun b =>
    { b with fromList := (b.fromList.filter (· != c)).map fun i => if i == f then c else i }
  have hGlist : (G.block q).fromList =
      ((g.block q).fromList.filter (· != c)).map fun i => if i == f then c else i := by
    have hq1 : q.idx < (G1.mapColumnsBelow q h).blocks.size := by
      rw [hbsize]
      exact hq
    simp only [G, block_modifyBlock, hq1, and_self, if_true]
    rw [hlists q]
    rfl
  have hfinal : ∀ H : Graph, H.items = G.items →
      (∀ b, (H.block b).fromList = (G.block b).fromList) →
      SameOutside q g H ∧ H.OwnJoinFilters ∧ H.JoinedListed q := by
    intro H hitems hfrom
    have hitem : ∀ x, H.item x = (G1.mapColumnsBelow q h).item x := fun x => by
      simp only [item, hitems, G, items_modifyBlock]
    have hshape := fun x => mapColumnsBelow_shape (g := G1) q h x
    refine ⟨hG1.trans ⟨by rw [hitems]; exact hsize, fun x => by rw [hitem]; exact (hshape x).1,
      fun x _ => by rw [hitem]; exact (hshape x).2, fun b hb => ?_⟩, fun x j' hj' => ?_,
      fun x hx j' hj' hp => ?_⟩
    · rw [hfrom, ← hlists b]
      exact congrArg Block.fromList (block_modifyBlock_of_ne _ hb)
    · rw [hitem] at hj'
      refine hf1.mapColumnsBelow q hfix (fun j'' hj'' => ?_) x j' hj'
      rw [hitem1 f hfc, hfjoin] at hj''
      cases hj''
    · rw [hfrom, hGlist] at hx ⊢
      obtain ⟨y, hy, rfl⟩ := List.mem_map.mp hx
      obtain ⟨hyl, hyc⟩ := List.mem_filter.mp hy
      have hyc : y ≠ c := by simpa using hyc
      have hyf : y ≠ f := by
        rintro rfl
        simp only [beq_self_eq_true, ite_true] at hj'
        have hlink := (hshape c).2.2
        rw [← hitem, hj', hjoin1] at hlink
        simp at hlink
      simp only [beq_iff_eq, hyf, ite_false] at hj' hp ⊢
      have hlink := (hshape y).2.2
      rw [← hitem, hj', hitem1 y hyc] at hlink
      obtain ⟨j₀, hj₀, hjj⟩ : ∃ j₀, (g.item y).join = some j₀ ∧ j₀.link = j'.link := by
        cases hy' : (g.item y).join with
        | none => simp [hy'] at hlink
        | some j₀ => exact ⟨j₀, rfl, by simpa [hy'] using hlink.symm⟩
      have hpowner : (g.item j₀.link.parent).owner = q := by
        rw [hjj, ← hp, hitem, (hshape _).1]
        exact (hG1.owner _).symm
      have hpl := hl y hyl j₀ hj₀ hpowner
      have hpf : j₀.link.parent ≠ f := by
        intro hpf
        have := mem_childrenOf hyl hj₀
        rw [hpf, hchildren, List.mem_singleton] at this
        exact hyc this
      rw [← hjj]
      by_cases hpc : j₀.link.parent = c
      · refine List.mem_map.mpr ⟨f, List.mem_filter.mpr ⟨hfl, by simpa using hfc⟩, ?_⟩
        simp [hpc]
      · exact List.mem_map.mpr ⟨j₀.link.parent, List.mem_filter.mpr ⟨hpl, by simpa using hpc⟩,
          by simp [hpf]⟩
  obtain ⟨hitems, hfroms⟩ := foldl_pushFilter q (notNull c) j.link.targetColumns G
  cases j.extra with
  | some x => exact hfinal _ hitems fun b => (fromList_pushFilter q _ b).trans (hfroms b)
  | none => exact hfinal _ hitems hfroms

/-- Removing items until none can go is confined to the block, keeps the graph well-formed and
every join filter a test of its own item, and keeps in the list every parent of the block that
a listed item joins. -/
theorem eliminateJoins_frame {q : QueryId} (hwf : g.WellFormed) (hf : g.OwnJoinFilters)
    (hl : g.JoinedListed q) :
  SameOutside q g (g.eliminateJoins q) ∧ (g.eliminateJoins q).WellFormed ∧
    (g.eliminateJoins q).OwnJoinFilters ∧ (g.eliminateJoins q).JoinedListed q
  := by
  refine eliminateJoins_preserves (fun g' => SameOutside q g g' ∧ g'.WellFormed ∧
    g'.OwnJoinFilters ∧ g'.JoinedListed q) q ?_ ⟨.refl q g, hwf, hf, hl⟩
  rintro g₁ g₂ ⟨hs, hwf₁, hf₁, hl₁⟩ h
  obtain ⟨f, hfl, ⟨hU, rfl⟩ | ⟨c, hc, rfl⟩⟩ := eliminateOne_cases h
  · obtain ⟨hs', hf₂, hl₂⟩ := eliminateTarget_frame hU hf₁ hl₁
    exact ⟨hs.trans hs', hwf₁.eliminateTarget q f, hf₂, hl₂⟩
  · obtain ⟨hs', hf₂, hl₂⟩ := eliminateParent_frame hc hfl hf₁ hl₁
    exact ⟨hs.trans hs', hwf₁.eliminateParent q f c (owner_of_unusedParent hc), hf₂, hl₂⟩

/-! ### Deciding joins -/

/-- Graphs with the same blocks have the same block at every index. -/
theorem block_of_blocks_eq (h : g'.blocks = g.blocks) (b : QueryId) : g'.block b = g.block b := by
  unfold block
  rw [h]

/-- `g'` has the blocks and items of `g` with the same joins, and changes the semantics of items
of `live` only. -/
structure SemanticsOf (live : List FromId) (g g' : Graph) : Prop where
  blocks : g'.blocks = g.blocks
  size : g'.items.size = g.items.size
  join : ∀ x, (g'.item x).join = (g.item x).join
  owner : ∀ x, (g'.item x).owner = (g.item x).owner
  semantics : ∀ x, x ∉ live → (g'.item x).semantics = (g.item x).semantics

namespace SemanticsOf

variable {live : List FromId} {g'' : Graph}

theorem refl (live : List FromId) (g : Graph) : SemanticsOf live g g :=
  ⟨rfl, rfl, fun _ => rfl, fun _ => rfl, fun _ _ => rfl⟩

theorem trans (h₁ : SemanticsOf live g g') (h₂ : SemanticsOf live g' g'') :
  SemanticsOf live g g''
  := ⟨h₂.blocks.trans h₁.blocks, h₂.size.trans h₁.size, fun x => (h₂.join x).trans (h₁.join x),
    fun x => (h₂.owner x).trans (h₁.owner x),
    fun x hx => (h₂.semantics x hx).trans (h₁.semantics x hx)⟩

/-- Setting the semantics of an item of `live` changes the semantics of `live` only. -/
theorem modifyItem {f : FromId} (hf : f ∈ live) (s : JoinSemantics) :
  SemanticsOf live g (g.modifyItem f fun i => { i with semantics := s })
  := by
  refine ⟨rfl, size_items_modifyItem _ _, fun x => ?_, fun x => ?_, fun x hx => ?_⟩
  · rw [item_modifyItem]
    split
    · rename_i hxf
      rw [FromId.ext_idx hxf.1]
    · rfl
  · rw [item_modifyItem]
    split
    · rename_i hxf
      rw [FromId.ext_idx hxf.1]
    · rfl
  · rw [item_modifyItem]
    split
    · rename_i hxf
      obtain rfl := FromId.ext_idx hxf.1
      exact absurd hf hx
    · rfl

/-- Such a graph is confined to the block whose list is `live`. -/
theorem sameOutside (h : SemanticsOf live g g') {q : QueryId} (hwf : g.WellFormed)
    (hlive : live = (g.block q).fromList) :
  SameOutside q g g'
  := by
  refine ⟨h.size, h.owner, fun x hx => ?_, fun b _ => by rw [block_of_blocks_eq h.blocks]⟩
  have hxl : x ∉ live := fun hxl => hx (hwf.fromList q x (hlive ▸ hxl)).2
  constructor
  · simp only [FromItem.isOuter, h.join x, h.semantics x hxl]
  · rw [h.join x]

end SemanticsOf

/-- Deciding the joins of `live` changes the semantics of `live` only. -/
theorem semanticsOf_decideJoins (q : QueryId) (conditions : List Expr) (live : List FromId) :
  SemanticsOf live g (g.decideJoins q conditions live)
  := by
  unfold decideJoins
  refine List.foldlRecOn (motive := SemanticsOf live g) _ _ (.refl live g) ?_
  intro G hG f hf
  dsimp only
  split
  · exact hG
  · split
    · exact hG
    · exact hG.trans (.modifyItem hf _)

/-- Deciding the join of `y` makes it inner when its parent belongs to another block. -/
theorem decideJoins_single_inner {q : QueryId} {conditions : List Expr} {y : FromId} {j : Join}
    (hj : (g.item y).join = some j) (ho : (g.item j.link.parent).owner ≠ q) :
  ((g.decideJoins q conditions [y]).item y).semantics = .inner
  := by
  simp [decideJoins, hj, ho, item_modifyItem, lt_of_join hj]

/-- Once the join of `x` to an item of another block is inner, deciding more joins keeps it so. -/
theorem decideJoins_keeps_inner {q : QueryId} {conditions : List Expr} (x : FromId) :
  ∀ (live : List FromId) (g : Graph),
    (∀ j, (g.item x).join = some j → (g.item j.link.parent).owner ≠ q →
      (g.item x).semantics = .inner) →
    ∀ j, ((g.decideJoins q conditions live).item x).join = some j →
      ((g.decideJoins q conditions live).item j.link.parent).owner ≠ q →
      ((g.decideJoins q conditions live).item x).semantics = .inner
  := by
  intro live
  induction live with
  | nil => exact fun g hx => hx
  | cons y rest ih =>
    intro g hx
    refine ih (g.decideJoins q conditions [y]) fun j hj ho => ?_
    have hy := semanticsOf_decideJoins (g := g) q conditions [y]
    rw [hy.join] at hj
    rw [hy.owner] at ho
    by_cases hxy : x = y
    · subst hxy
      exact decideJoins_single_inner hj ho
    · rw [hy.semantics x (by simpa using hxy)]
      exact hx j hj ho

/-- Deciding the joins of `live` makes inner every join of an item of `live` to an item of
another block. -/
theorem decideJoins_correlated {q : QueryId} {conditions : List Expr} :
  ∀ (live : List FromId) (g : Graph), ∀ x ∈ live, ∀ j,
    ((g.decideJoins q conditions live).item x).join = some j →
    ((g.decideJoins q conditions live).item j.link.parent).owner ≠ q →
    ((g.decideJoins q conditions live).item x).semantics = .inner
  := by
  intro live
  induction live with
  | nil => exact fun _ x hx => absurd hx List.not_mem_nil
  | cons y rest ih =>
    intro g x hx
    rcases List.mem_cons.mp hx with rfl | hx
    · refine decideJoins_keeps_inner x rest (g.decideJoins q conditions [x]) fun j hj ho => ?_
      have hy := semanticsOf_decideJoins (g := g) q conditions [x]
      rw [hy.join] at hj
      rw [hy.owner] at ho
      exact decideJoins_single_inner hj ho
    · exact ih _ x hx

/-- One pass making outer parents inner changes the semantics of items of `live` only, and
makes none outer. -/
theorem innerParentsPass_spec (live : List FromId) :
  SemanticsOf live g (g.innerParentsPass live).1 ∧
    ∀ x, ((g.innerParentsPass live).1.item x).isOuter → (g.item x).isOuter
  := by
  unfold innerParentsPass
  refine List.foldlRecOn (motive := fun acc : Graph × Bool => SemanticsOf live g acc.1 ∧
    ∀ x, (acc.1.item x).isOuter → (g.item x).isOuter) _ _ ⟨.refl live g, fun _ h => h⟩ ?_
  rintro ⟨G, changed⟩ ⟨hG, hout⟩ f _
  dsimp only
  split
  · exact ⟨hG, hout⟩
  · split
    · exact ⟨hG, hout⟩
    · split
      · rename_i j _ hcond
        simp only [Bool.and_eq_true, List.contains_iff_mem] at hcond
        refine ⟨hG.trans (.modifyItem hcond.2 _), fun x hx => hout x ?_⟩
        rw [item_modifyItem] at hx
        split at hx
        · simp [FromItem.isOuter] at hx
        · exact hx
      · exact ⟨hG, hout⟩

/-- Making outer parents inner, pass after pass, changes the semantics of items of `live` only,
and makes none outer. -/
theorem innerParents_spec (live : List FromId) :
  SemanticsOf live g (g.innerParents live) ∧
    ∀ x, ((g.innerParents live).item x).isOuter → (g.item x).isOuter
  := by
  unfold innerParents
  generalize live.length + 1 = fuel
  induction fuel generalizing g with
  | zero => exact ⟨.refl live g, fun _ h => h⟩
  | succ fuel ih =>
    rw [innerParents.go]
    obtain ⟨hpass, hpout⟩ := innerParentsPass_spec (g := g) live
    split
    · rename_i g' hg'
      rw [hg'] at hpass hpout
      obtain ⟨hrest, hrout⟩ := ih (g := g')
      exact ⟨hpass.trans hrest, fun x hx => hpout x (hrout x hx)⟩
    · rename_i g' hg'
      rw [hg'] at hpass hpout
      exact ⟨hpass, hpout⟩

/-- Deciding the joins of block `q` is confined to it, changes no join, and leaves outer only
items joined to items of `q`: so when every parent of the block that a listed item joins is
listed, the parent of every outer item is listed. -/
theorem inferSemantics_frame {q : QueryId} (hwf : g.WellFormed) (hl : g.JoinedListed q) :
  SameOutside q g (g.inferSemantics q) ∧
    (∀ x, ((g.inferSemantics q).item x).join = (g.item x).join) ∧
    (g.inferSemantics q).OuterParentsListed ((g.inferSemantics q).block q).fromList
  := by
  unfold inferSemantics
  dsimp only
  have hd := semanticsOf_decideJoins (g := g) q (g.conditions q) (g.block q).fromList
  obtain ⟨hi, hiout⟩ := innerParents_spec (g := g.decideJoins q (g.conditions q) (g.block q).fromList)
    (g.block q).fromList
  have hall := hd.trans hi
  refine ⟨hall.sameOutside hwf rfl, hall.join, fun c hc hout => ?_⟩
  have hlist : ((g.decideJoins q (g.conditions q) (g.block q).fromList).innerParents
      (g.block q).fromList).block q = g.block q :=
    block_of_blocks_eq hall.blocks q
  rw [hlist] at hc ⊢
  have hout' := hiout c hout
  obtain ⟨j, hj⟩ : ∃ j, ((g.decideJoins q (g.conditions q) (g.block q).fromList).item c).join =
      some j := by
    simp only [FromItem.isOuter, Bool.and_eq_true] at hout'
    exact Option.isSome_iff_exists.mp hout'.1
  have howner : ((g.decideJoins q (g.conditions q) (g.block q).fromList).item
      j.link.parent).owner = q := by
    by_contra hne
    have hinner := decideJoins_correlated _ g c hc j hj hne
    simp [FromItem.isOuter, hinner] at hout'
  rw [hd.join] at hj
  rw [hd.owner] at howner
  exact ⟨j, hall.join c ▸ hj, hl c hc j hj howner⟩

/-- Reordering is confined to the block, and changes no item. -/
theorem sameOutside_reorderOuter (q : QueryId) : SameOutside q g (g.reorderOuter q) :=
  .modifyBlock (.inl rfl)

theorem OwnJoinFilters.reorderOuter (hf : g.OwnJoinFilters) {q : QueryId} :
  (g.reorderOuter q).OwnJoinFilters
  := fun x j hj => hf x j (by rwa [item_reorderOuter] at hj)

/-! ### Joins of UPDATE and DELETE -/

/-! ### The invariant of the optimizer -/

/-- What the optimizer keeps with the blocks below `pending` not begun and those from `done` on
done: the graph is well-formed and filters each join by a test of its own item, every item of a
block not begun is in its block's FROM list, and every block done is in join order. -/
structure JoinsPlaced (g : Graph) (pending done : Nat) : Prop where
  wf : g.WellFormed
  filters : g.OwnJoinFilters
  listed : ∀ f : FromId, f.idx < g.items.size → (g.item f).owner.idx < pending →
    f ∈ (g.block (g.item f).owner).fromList
  ordered : ∀ b : QueryId, done ≤ b.idx → g.JoinOrdered (g.block b).fromList

namespace JoinsPlaced

variable {q : QueryId} {p : Nat}

/-- A well-formed graph that places its items has every block still to do. -/
theorem ofPlaced (hwf : g.WellFormed) (hp : g.Placed) : g.JoinsPlaced g.blocks.size g.blocks.size :=
  ⟨hwf, hp.extra, fun f hf _ => hp.listed f hf, fun b hb => by
    have hnil : (default : Block).fromList = [] := rfl
    rw [block_eq_default hb, hnil]
    exact JoinOrdered.of_not_outer fun x hx => absurd hx List.not_mem_nil⟩

/-- Beginning block `q`: every item of `q` is in its list. -/
theorem begin (h : g.JoinsPlaced (q.idx + 1) (q.idx + 1)) :
  g.JoinsPlaced q.idx (q.idx + 1) ∧
    ∀ f : FromId, f.idx < g.items.size → (g.item f).owner = q → f ∈ (g.block q).fromList
  := by
  refine ⟨⟨h.wf, h.filters, fun f hf ho => h.listed f hf (Nat.lt_succ_of_lt ho), h.ordered⟩,
    fun f hf ho => ?_⟩
  have hl := h.listed f hf (by rw [ho]; exact Nat.lt_succ_self _)
  rwa [ho] at hl

/-- Work confined to block `q` keeps the invariant of the other blocks. -/
theorem outside (h : g.JoinsPlaced p (q.idx + 1)) (hp : p ≤ q.idx) (hs : SameOutside q g g')
    (hwf : g'.WellFormed) (hf : g'.OwnJoinFilters) :
  g'.JoinsPlaced p (q.idx + 1)
  := by
  refine ⟨hwf, hf, fun f hf' ho => ?_, fun b hb => ?_⟩
  · rw [hs.owner] at ho ⊢
    have hne : (g.item f).owner ≠ q := fun he => by rw [he] at ho; omega
    rw [hs.fromList _ hne]
    exact h.listed f (hs.size ▸ hf') ho
  · have hne : b ≠ q := fun he => by rw [he] at hb; omega
    rw [hs.fromList b hne]
    refine (h.ordered b hb).of_sameOuter fun x hx => hs.outer x ?_
    rw [(h.wf.fromList b x hx).2]
    exact hne

/-- Block `q` in join order is done. -/
theorem finish (h : g.JoinsPlaced p (q.idx + 1)) (hq : g.JoinOrdered (g.block q).fromList) :
  g.JoinsPlaced p q.idx
  := by
  refine ⟨h.wf, h.filters, h.listed, fun b hb => ?_⟩
  rcases Nat.lt_or_eq_of_le hb with hlt | heq
  · exact h.ordered b hlt
  · rw [← QueryId.ext_idx heq]
    exact hq

/-- Moving the joins of a bulk statement keeps block `q` in join order: it keeps its first item,
which is not outer, and the items moved, all inner, make a new block in join order. -/
theorem correlateBulkJoins (h : g.JoinsPlaced q.idx q.idx) (hc : g.correlateBulkJoins q = .ok g') :
  g'.JoinsPlaced q.idx q.idx
  := by
  have hwf' := h.wf.correlateBulkJoins q hc
  rcases correlateBulkJoins_eq_ok hc with rfl | ⟨-, hq, hinner, rfl⟩
  · exact h
  have hnd := h.wf.fromNodup q
  have hkeep : ∀ x, (g.item x).owner ≠ q → (g.correlated q).item x = g.item x := by
    intro x hx
    rw [item_correlated, if_neg]
    intro hmem
    exact hx (h.wf.fromList q x (List.mem_of_mem_drop hmem.1)).2
  refine ⟨hwf', fun x j hj => ?_, fun f hf ho => ?_, fun b hb => ?_⟩
  · rw [join_item_correlated] at hj
    exact h.filters x j hj
  · rw [item_correlated] at ho ⊢
    split at ho
    · exact absurd ho (by simp only [not_lt]; omega)
    · rename_i hmoved
      rw [if_neg hmoved]
      have hne : (g.item f).owner ≠ q := fun he => by rw [he] at ho; omega
      rw [block_correlated hq, if_neg hne, if_neg (by omega)]
      exact h.listed f (by rwa [size_items_correlated] at hf) ho
  · rw [block_correlated hq]
    split_ifs with hbq hbs
    · subst hbq
      refine (h.ordered b hb).take_one hnd |>.of_sameOuter fun x hx => ?_
      rw [item_correlated, if_neg fun hm => not_mem_bulkJoined hnd hx hm.1]
      exact ⟨rfl, rfl⟩
    · refine JoinOrdered.of_not_outer fun x hx => ?_
      rw [item_correlated, if_pos ⟨hx, (h.wf.fromList q x (List.mem_of_mem_drop hx)).1⟩]
      simp [FromItem.isOuter, hinner x hx]
    · refine (h.ordered b hb).of_sameOuter fun x hx => ?_
      rw [hkeep x (by rw [(h.wf.fromList b x hx).2]; exact hbq)]
      exact ⟨rfl, rfl⟩

/-- Optimizing block `q` once the blocks after it are done leaves it done as well. Absorbing the
joins of `q` lists every parent that a listed item joins; removing items keeps those parents listed;
deciding the joins leaves outer only items joined to listed parents; so reordering puts the block in
join order, and moving the joins of a bulk statement keeps it so. -/
theorem optimizeBlock (h : g.JoinsPlaced (q.idx + 1) (q.idx + 1))
    (hopt : g.optimizeBlock q = .ok g') :
  g'.JoinsPlaced q.idx q.idx
  := by
  replace hopt : ((((g.absorbJoins q).eliminateJoins q).inferSemantics q).reorderOuter q
      ).correlateBulkJoins q = .ok g' := hopt
  obtain ⟨h0, hlisted⟩ := h.begin
  obtain ⟨hs1, hf1, hl1⟩ := absorbJoins_frame h0.filters q
  have hwf1 := h0.wf.absorbJoins q
  have h1 := h0.outside le_rfl hs1 hwf1 hf1
  have hjl1 : (g.absorbJoins q).JoinedListed q := by
    intro c _ j hj hp
    rw [hl1 q]
    refine hlisted j.link.parent ?_ (by rw [← hs1.owner]; exact hp)
    rw [← hs1.size]
    exact (hwf1.join c j hj).2.1
  obtain ⟨hs2, hwf2, hf2, hjl2⟩ := eliminateJoins_frame hwf1 hf1 hjl1
  have h2 := h1.outside le_rfl hs2 hwf2 hf2
  obtain ⟨hs3, hjoin3, hopl3⟩ := inferSemantics_frame hwf2 hjl2
  have hwf3 := hwf2.inferSemantics q
  have h3 := h2.outside le_rfl hs3 hwf3 fun x j hj => hf2 x j (hjoin3 x ▸ hj)
  have h4 := (h3.outside le_rfl (sameOutside_reorderOuter q) (hwf3.reorderOuter q)
    h3.filters.reorderOuter).finish (joinOrdered_reorderOuter hwf3 hopl3)
  exact h4.correlateBulkJoins hopt

/-- Optimizing the blocks numbered below `n`, the last first, from a graph with none of them
begun and the rest done, leaves every block done. -/
theorem optimize_range (n : Nat) {g g' : Graph} (hg : g.JoinsPlaced n n)
    (h : (List.range n).reverse.foldlM (fun g i => g.optimizeBlock ⟨i⟩) g = .ok g') :
  g'.JoinsPlaced 0 0
  := by
  induction n generalizing g with
  | zero =>
    simp only [List.range_zero, List.reverse_nil, List.foldlM_nil, pure, Except.pure,
      Except.ok.injEq] at h
    exact h ▸ hg
  | succ n ih =>
    rw [List.range_succ, List.reverse_append, List.reverse_singleton, List.singleton_append,
      List.foldlM_cons] at h
    cases hstep : g.optimizeBlock ⟨n⟩ with
    | error r =>
      rw [hstep] at h
      cases h
    | ok g1 =>
      rw [hstep] at h
      exact ih (hg.optimizeBlock hstep) h

end JoinsPlaced

/-- The optimizer puts every block of a well-formed graph that places its items in join order,
keeping the graph well-formed and every join filter a test of its own item. -/
theorem joinOrdered_optimize (hwf : g.WellFormed) (hp : g.Placed) (h : g.optimize = .ok g') :
  g'.WellFormed ∧ g'.OwnJoinFilters ∧ ∀ b, g'.JoinOrdered (g'.block b).fromList
  := by
  have hdone := JoinsPlaced.optimize_range _ (JoinsPlaced.ofPlaced hwf hp) h
  exact ⟨hdone.wf, hdone.filters, fun b => hdone.ordered b (Nat.zero_le _)⟩

end Graph

end EntityQuery
