import EntityQuery.Proofs.Graph.WellFormed
import EntityQuery.Query.Binding

/-!
# Items placed in their blocks

Reading puts each item it makes at the end of the FROM list of the block that owns it, and
the only filter it gives a join is the test of the joined entity's discriminator, a test of a
column of the item joined. `Graph.Placed` says both; the changes reading makes to a graph keep
it: a new block, a new item of a block the graph has, and changes to a block or an item that
leave the FROM lists, the owners and the joins alone.
-/

namespace EntityQuery

/-- The test that a column of item `f` holds a given text, as a discriminator filter is. -/
def Expr.IsDiscriminatorOf (f : FromId) (x : Expr) : Prop :=
  ∃ column value, x = .binary .eq (Expr.col f column) (.literal (.string value))

/-- A discriminator filter tests a column of its item. -/
theorem discriminatorFilter_isDiscriminatorOf {f : FromId} {e : Entity} {x : Expr}
    (h : discriminatorFilter f e = some x) :
  x.IsDiscriminatorOf f
  := by
  simp only [discriminatorFilter, Option.map_eq_some_iff] at h
  obtain ⟨d, -, rfl⟩ := h
  exact ⟨d.column, _, rfl⟩

namespace Graph

/-- The filter of every join tests the discriminator of the item joined. -/
def OwnJoinFilters (g : Graph) : Prop :=
  ∀ f j, (g.item f).join = some j → ∀ x ∈ j.extra, x.IsDiscriminatorOf f

/-- Every item stands in the FROM list of the block that owns it, and the filter of every join
tests the discriminator of the item joined. -/
structure Placed (g : Graph) : Prop where
  listed : ∀ f : FromId, f.idx < g.items.size → f ∈ (g.block (g.item f).owner).fromList
  extra : g.OwnJoinFilters

variable {g : Graph}

namespace Placed

/-- A graph with nothing in it places all its items. -/
theorem empty : ({} : Graph).Placed where
  listed _ hf := absurd hf (Nat.not_lt_zero _)
  extra _ _ hj := absurd (lt_of_join hj) (Nat.not_lt_zero _)

/-- A new block leaves every item where it was: each belongs to a block made before. -/
theorem pushBlock (hp : g.Placed) (hg : g.WellFormed) (b : Block) :
  ({ g with blocks := g.blocks.push b } : Graph).Placed
  := by
  refine ⟨fun f hf => ?_, hp.extra⟩
  have hlt := hg.owner f hf
  change f ∈ (({ g with blocks := g.blocks.push b } : Graph).block (g.item f).owner).fromList
  rw [block_push, if_neg (Nat.ne_of_lt hlt)]
  exact hp.listed f hf

/-- A new item at the end of the FROM list of a block the graph has, owned by that block and
filtered (if at all) by a test of its own discriminator, is placed. -/
theorem addItem (hp : g.Placed) (q : QueryId) (hq : q.idx < g.blocks.size) (i : FromItem)
    (howner : i.owner = q)
    (hextra : ∀ j, i.join = some j → ∀ x ∈ j.extra, x.IsDiscriminatorOf ⟨g.items.size⟩) :
  (({ g with items := g.items.push i } : Graph).modifyBlock q
    fun blk => { blk with fromList := blk.fromList ++ [⟨g.items.size⟩] }).Placed
  := by
  constructor
  · intro f hf
    simp only [items_modifyBlock, Array.size_push] at hf
    rw [item_modifyBlock, item_push, block_modifyBlock]
    by_cases hnew : f.idx = g.items.size
    · obtain rfl : f = ⟨g.items.size⟩ := FromId.ext_idx hnew
      simp [howner, hq]
    · have hold := hp.listed f (by omega)
      simp only [hnew, if_false]
      split
      · rename_i hqq
        rw [QueryId.ext_idx hqq.1] at hold
        exact List.mem_append_left _ hold
      · exact hold
  · intro f j hj
    rw [item_modifyBlock, item_push] at hj
    split at hj
    · rename_i hnew
      obtain rfl : f = ⟨g.items.size⟩ := FromId.ext_idx hnew
      exact hextra j hj
    · exact hp.extra f j hj

/-- A block changed without changing its FROM list keeps every item placed. -/
theorem modifyBlock (hp : g.Placed) (q : QueryId) (h : Block → Block)
    (hfrom : ∀ b, (h b).fromList = b.fromList) :
  (g.modifyBlock q h).Placed
  := by
  refine ⟨fun f hf => ?_, hp.extra⟩
  rw [item_modifyBlock, block_modifyBlock]
  split
  · rename_i hqq
    rw [hfrom, ← QueryId.ext_idx hqq.1]
    exact hp.listed f hf
  · exact hp.listed f hf

/-- An item changed without changing its block or its join stays placed. -/
theorem modifyItem (hp : g.Placed) (f : FromId) (h : FromItem → FromItem)
    (howner : ∀ i, (h i).owner = i.owner) (hjoin : ∀ i, (h i).join = i.join) :
  (g.modifyItem f h).Placed
  := by
  have hitem : ∀ x, ((g.modifyItem f h).item x).owner = (g.item x).owner ∧
      ((g.modifyItem f h).item x).join = (g.item x).join := by
    intro x
    rw [item_modifyItem]
    split
    · rename_i hx
      rw [FromId.ext_idx hx.1]
      exact ⟨howner _, hjoin _⟩
    · exact ⟨rfl, rfl⟩
  refine ⟨fun x hx => ?_, fun x j hj => ?_⟩
  · rw [block_modifyItem, (hitem x).1]
    exact hp.listed x (by simpa using hx)
  · rw [(hitem x).2] at hj
    exact hp.extra x j hj

end Placed

end Graph

end EntityQuery
