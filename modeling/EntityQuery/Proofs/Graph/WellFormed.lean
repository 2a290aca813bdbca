import Mathlib
import EntityQuery.Proofs.Graph.Within
import EntityQuery.Proofs.Query.Writable

/-!
# Well-formed graphs

A graph names its items and blocks by index, and so does everything it holds: FROM lists,
columns, collection owners, the ends of joins, entities, sub-queries, `JOIN FETCH`
declarations, and parameters by their index among the arguments. `Graph.WellFormed` says that
every such index names something the graph has, and that the graph has the shape compilation
relies on: each item and each block is stored at its own index, a block's parent is a block
made before it, each FROM list holds items of its own block once each, and the walk from an item
up the items it is joined to always ends (`Graph.WellFormed.acyclic`).

`Graph.ancestors n f` lists the first `n` items of that walk. In a well-formed graph the items
of the walk are distinct, and all but the last are joined, which only an item the graph has can
be; so the walk ends within one step more than there are items (`Graph.mem_ancestors_iff`).

The changes that reading a query makes keep a graph well-formed: a new block under a block made
before it, a new item joined to an item the graph has, a parameter, and changes of one block or
one item that keep what they must.
-/

namespace EntityQuery

/-- Adding to a well-founded relation the step from `t` to `p`, where `t` is not below `p`, keeps
it well-founded: a descending chain through the new step would come back to `t`. -/
theorem wellFounded_addStep {α : Type} {R R' : α → α → Prop} {t p : α} (hwf : WellFounded R)
    (hR : ∀ y x, R' y x → R y x ∨ (x = t ∧ y = p)) (hp : ¬ Relation.ReflTransGen R t p) :
  WellFounded R'
  := by
  have hbelow : ∀ x, Acc R x → ¬ Relation.ReflTransGen R t x → Acc R' x := by
    intro x hx
    induction hx with
    | intro x _ ih =>
      intro htx
      refine Acc.intro x fun y hyx => ?_
      rcases hR y x hyx with hyx | ⟨rfl, -⟩
      · exact ih y hyx fun hty => htx (hty.tail hyx)
      · exact absurd Relation.ReflTransGen.refl htx
  refine ⟨fun x => ?_⟩
  induction hwf.apply x with
  | intro x _ ih =>
    refine Acc.intro x fun y hyx => ?_
    rcases hR y x hyx with hyx | ⟨-, rfl⟩
    · exact ih y hyx
    · exact hbelow y (hwf.apply y) hp

namespace Graph

variable {g : Graph}

/-! ### Indices out of range -/

theorem item_eq_default {f : FromId} (hf : g.items.size ≤ f.idx) : g.item f = default := by
  simp [item, Array.getElem?_eq_none hf]

theorem block_eq_default {q : QueryId} (hq : g.blocks.size ≤ q.idx) : g.block q = default := by
  simp [block, Array.getElem?_eq_none hq]

/-- Only an item the graph has is joined. -/
theorem lt_of_join {f : FromId} {j : Join} (h : (g.item f).join = some j) :
  f.idx < g.items.size
  := by
  by_contra hf
  rw [item_eq_default (Nat.le_of_not_lt hf)] at h
  cases h

/-- Only a block the graph has has a parent. -/
theorem lt_of_parent {q p : QueryId} (h : (g.block q).parent = some p) :
  q.idx < g.blocks.size
  := by
  by_contra hq
  rw [block_eq_default (Nat.le_of_not_lt hq)] at h
  cases h

/-! ### The walk up the joins -/

/-- `p` is the item that `f` is joined to. -/
def JoinParent (g : Graph) (p f : FromId) : Prop :=
  ∃ j, (g.item f).join = some j ∧ j.link.parent = p

/-- The first `n` items of the walk from `f` up its joins: `f`, the item it is joined to, and so
on, up to an item without a join. -/
def ancestors (g : Graph) : Nat → FromId → List FromId
  | 0, _ => []
  | n + 1, f => f :: match (g.item f).join with
    | some j => g.ancestors n j.link.parent
    | none => []

@[simp]
theorem ancestors_zero (f : FromId) : g.ancestors 0 f = [] := rfl

theorem ancestors_succ_of_join {n : Nat} {f : FromId} {j : Join} (h : (g.item f).join = some j) :
  g.ancestors (n + 1) f = f :: g.ancestors n j.link.parent
  := by
  simp [ancestors, h]

theorem ancestors_succ_of_none {n : Nat} {f : FromId} (h : (g.item f).join = none) :
  g.ancestors (n + 1) f = [f]
  := by
  simp [ancestors, h]

/-- Each item of the walk from `f` is `f` or an item above it. -/
theorem reflTransGen_of_mem_ancestors {n : Nat} {f x : FromId} (hx : x ∈ g.ancestors n f) :
  Relation.ReflTransGen g.JoinParent x f
  := by
  induction n generalizing f with
  | zero => simp at hx
  | succ n ih =>
    cases hj : (g.item f).join with
    | none =>
      rw [ancestors_succ_of_none hj, List.mem_singleton] at hx
      rw [hx]
    | some j =>
      rw [ancestors_succ_of_join hj] at hx
      rcases List.mem_cons.mp hx with rfl | hx
      · exact .refl
      · exact (ih hx).tail ⟨j, hj, rfl⟩

/-- Each item above `f` is on a long enough walk from `f`. -/
theorem exists_mem_ancestors {f x : FromId} (h : Relation.ReflTransGen g.JoinParent x f) :
  ∃ n, x ∈ g.ancestors n f
  := by
  induction h with
  | refl => exact ⟨1, List.mem_cons_self ..⟩
  | tail _ hbc ih =>
    obtain ⟨n, hn⟩ := ih
    obtain ⟨j, hj, rfl⟩ := hbc
    exact ⟨n + 1, by rw [ancestors_succ_of_join hj]; exact List.mem_cons_of_mem _ hn⟩

/-- A longer walk goes on from a shorter one. -/
theorem ancestors_prefix_succ (n : Nat) (f : FromId) : g.ancestors n f <+: g.ancestors (n + 1) f := by
  induction n generalizing f with
  | zero => exact List.nil_prefix
  | succ n ih =>
    cases hj : (g.item f).join with
    | none => rw [ancestors_succ_of_none hj, ancestors_succ_of_none hj]
    | some j =>
      rw [ancestors_succ_of_join hj, ancestors_succ_of_join hj]
      exact (List.prefix_cons_inj f).mpr (ih _)

theorem ancestors_prefix_of_le {m n : Nat} (hmn : m ≤ n) (f : FromId) :
  g.ancestors m f <+: g.ancestors n f
  := by
  induction n, hmn using Nat.le_induction with
  | base => exact List.prefix_refl _
  | succ n _ ih => exact ih.trans (ancestors_prefix_succ n f)

theorem length_ancestors_le (n : Nat) (f : FromId) : (g.ancestors n f).length ≤ n := by
  induction n generalizing f with
  | zero => simp
  | succ n ih =>
    cases hj : (g.item f).join with
    | none => simp [ancestors_succ_of_none hj]
    | some j =>
      rw [ancestors_succ_of_join hj, List.length_cons]
      exact Nat.succ_le_succ (ih _)

/-- A walk shorter than its steps has reached an item without a join: it goes no further. -/
theorem ancestors_succ_eq {n : Nat} {f : FromId} (h : (g.ancestors n f).length < n) :
  g.ancestors (n + 1) f = g.ancestors n f
  := by
  induction n generalizing f with
  | zero => exact absurd h (Nat.not_lt_zero _)
  | succ n ih =>
    cases hj : (g.item f).join with
    | none => rw [ancestors_succ_of_none hj, ancestors_succ_of_none hj]
    | some j =>
      rw [ancestors_succ_of_join hj, List.length_cons] at h
      rw [ancestors_succ_of_join hj, ancestors_succ_of_join hj, ih (Nat.lt_of_succ_lt_succ h)]

/-- Every item of a walk but its last is joined, so the graph has it. -/
theorem lt_of_mem_dropLast_ancestors {n : Nat} {f x : FromId}
    (hx : x ∈ (g.ancestors n f).dropLast) :
  x.idx < g.items.size
  := by
  induction n generalizing f with
  | zero => simp at hx
  | succ n ih =>
    cases hj : (g.item f).join with
    | none => simp [ancestors_succ_of_none hj] at hx
    | some j =>
      rw [ancestors_succ_of_join hj] at hx
      cases hrest : g.ancestors n j.link.parent with
      | nil => simp [hrest] at hx
      | cons y ys =>
        rw [hrest, List.dropLast_cons_cons] at hx
        rcases List.mem_cons.mp hx with rfl | hx
        · exact lt_of_join hj
        · exact ih (by rw [hrest]; exact hx)

/-- Distinct items the graph has are at most as many as its items. -/
theorem length_le_of_nodup {l : List FromId} (hl : l.Nodup) (h : ∀ x ∈ l, x.idx < g.items.size) :
  l.length ≤ g.items.size
  := by
  have hinj : Function.Injective FromId.idx := fun a b hab => by
    cases a
    cases b
    simp_all
  have hsub : l.map FromId.idx ⊆ List.range g.items.size := by
    intro i hi
    obtain ⟨x, hx, rfl⟩ := List.mem_map.mp hi
    exact List.mem_range.mpr (h x hx)
  simpa using (List.subperm_of_subset (hl.map hinj) hsub).length_le

section Acyclic

variable (hwf : WellFounded g.JoinParent)
include hwf

/-- When the joins never come back, the walk passes each item at most once. An item met twice would
be above the item it is joined to, which closes a cycle of joins. -/
theorem ancestors_nodup (n : Nat) (f : FromId) : (g.ancestors n f).Nodup := by
  induction n generalizing f with
  | zero => simp
  | succ n ih =>
    cases hj : (g.item f).join with
    | none => simp [ancestors_succ_of_none hj]
    | some j =>
      rw [ancestors_succ_of_join hj, List.nodup_cons]
      refine ⟨fun hf => ?_, ih _⟩
      exact hwf.transGen.irrefl.irrefl f
        (Relation.TransGen.tail' (reflTransGen_of_mem_ancestors hf) ⟨j, hj, rfl⟩)

theorem length_ancestors_le_size (n : Nat) (f : FromId) :
  (g.ancestors n f).length ≤ g.items.size + 1
  := by
  have h := length_le_of_nodup ((ancestors_nodup hwf n f).sublist (List.dropLast_sublist _))
    fun x hx => lt_of_mem_dropLast_ancestors hx
  rw [List.length_dropLast] at h
  omega

/-- Past one step more than there are items, the walk has ended. -/
theorem ancestors_eq_of_le {n : Nat} (hn : g.items.size + 1 ≤ n) (f : FromId) :
  g.ancestors n f = g.ancestors (g.items.size + 1) f
  := by
  induction n, hn using Nat.le_induction with
  | base => rfl
  | succ n hn ih =>
    rw [← ih]
    rcases Nat.lt_or_ge (g.ancestors n f).length n with hlt | hge
    · exact ancestors_succ_eq hlt
    · have hlen : (g.ancestors n f).length = n := Nat.le_antisymm (length_ancestors_le n f) hge
      have hsucc := length_ancestors_le_size hwf (n + 1) f
      exact ((ancestors_prefix_succ n f).eq_of_length (by
        have := (ancestors_prefix_succ (g := g) n f).length_le
        omega)).symm

/-- The walk with one step more than there are items passes exactly `f` and the items above
it. -/
theorem mem_ancestors_iff {f x : FromId} :
  x ∈ g.ancestors (g.items.size + 1) f ↔ Relation.ReflTransGen g.JoinParent x f
  := by
  refine ⟨reflTransGen_of_mem_ancestors, fun h => ?_⟩
  obtain ⟨n, hn⟩ := exists_mem_ancestors h
  rcases Nat.le_total n (g.items.size + 1) with hle | hge
  · exact (ancestors_prefix_of_le hle f).subset hn
  · rwa [ancestors_eq_of_le hwf hge f] at hn

end Acyclic

/-! ### Well-formedness -/

/-- A graph whose indices all name what it has, with the shape compilation relies on. -/
structure WellFormed (g : Graph) : Prop where
  /-- Each item is stored at its own index. -/
  itemId : ∀ f : FromId, f.idx < g.items.size → (g.item f).id = f
  /-- Each block is stored at its own index. -/
  blockId : ∀ q : QueryId, q.idx < g.blocks.size → (g.block q).id = q
  /-- Each item belongs to a block the graph has. -/
  owner : ∀ f : FromId, f.idx < g.items.size → (g.item f).owner.idx < g.blocks.size
  /-- An item's join joins the item itself to an item the graph has, with a filter within the
  graph. -/
  join : ∀ f j, (g.item f).join = some j →
    j.link.target = f ∧ j.link.parent.idx < g.items.size ∧ ∀ x ∈ j.extra, x.Within g.extent
  /-- A block's parent was made before it. -/
  parent : ∀ q p, (g.block q).parent = some p → p.idx < q.idx
  /-- A FROM list holds items of its own block. -/
  fromList : ∀ q, ∀ f ∈ (g.block q).fromList, f.idx < g.items.size ∧ (g.item f).owner = q
  /-- A FROM list holds each item once. -/
  fromNodup : ∀ q, (g.block q).fromList.Nodup
  /-- Every expression of a block is within the graph. -/
  exprs : ∀ q, ∀ e ∈ (g.block q).expressions, e.Within g.extent
  /-- Every `JOIN FETCH` of a block names items the graph has. -/
  fetches : ∀ q s, (g.block q).body = .select s → ∀ x ∈ s.fetches,
    x.owner.idx < g.items.size ∧ x.target.idx < g.items.size
  /-- The walk up the joins from any item ends. -/
  acyclic : WellFounded g.JoinParent

namespace WellFormed

/-- A graph with nothing in it is well-formed. -/
theorem empty : ({} : Graph).WellFormed where
  itemId f hf := absurd hf (Nat.not_lt_zero _)
  blockId q hq := absurd hq (Nat.not_lt_zero _)
  owner f hf := absurd hf (Nat.not_lt_zero _)
  join f j hj := absurd (lt_of_join hj) (Nat.not_lt_zero _)
  parent q p hp := absurd (lt_of_parent hp) (Nat.not_lt_zero _)
  fromList q f hf := by
    rw [block_eq_default (Nat.zero_le _)] at hf
    cases hf
  fromNodup q := by
    rw [block_eq_default (Nat.zero_le _)]
    exact List.nodup_nil
  exprs q e he := by
    rw [block_eq_default (Nat.zero_le _)] at he
    cases he
  fetches q s hs := by
    rw [block_eq_default (Nat.zero_le _)] at hs
    cases hs
    intro x hx
    cases hx
  acyclic := ⟨fun f => Acc.intro f fun p ⟨j, hj, _⟩ => absurd (lt_of_join hj) (Nat.not_lt_zero _)⟩

/-- The new item of a graph is no item's parent, so it is above nothing but itself. -/
theorem not_reflTransGen_new (hg : g.WellFormed) {x : FromId} (hx : x.idx < g.items.size) :
  ¬ Relation.ReflTransGen g.JoinParent ⟨g.items.size⟩ x
  := by
  intro h
  have hnew : ∀ y, Relation.ReflTransGen g.JoinParent ⟨g.items.size⟩ y → y = ⟨g.items.size⟩ := by
    intro y hy
    induction hy with
    | refl => rfl
    | tail _ hbc ih =>
      obtain ⟨j, hj, hp⟩ := hbc
      have hlt := (hg.join _ j hj).2.1
      rw [hp, ih] at hlt
      exact absurd hlt (Nat.lt_irrefl _)
  rw [hnew x h] at hx
  exact absurd hx (Nat.lt_irrefl _)

end WellFormed

/-! ### Changes that keep a graph well-formed -/

theorem item_push (i : FromItem) (f : FromId) :
  ({ g with items := g.items.push i } : Graph).item f =
    if f.idx = g.items.size then i else g.item f
  := by
  simp only [item, Array.getElem?_push]
  split <;> simp

theorem block_push (b : Block) (q : QueryId) :
  ({ g with blocks := g.blocks.push b } : Graph).block q =
    if q.idx = g.blocks.size then b else g.block q
  := by
  simp only [block, Array.getElem?_push]
  split <;> simp

@[simp]
theorem items_modifyBlock (q : QueryId) (h : Block → Block) : (g.modifyBlock q h).items = g.items
  := rfl

@[simp]
theorem size_blocks_modifyBlock (q : QueryId) (h : Block → Block) :
  (g.modifyBlock q h).blocks.size = g.blocks.size
  := Array.size_modify ..

@[simp]
theorem blocks_modifyItem (f : FromId) (h : FromItem → FromItem) :
  (g.modifyItem f h).blocks = g.blocks
  := rfl

@[simp]
theorem size_items_modifyItem (f : FromId) (h : FromItem → FromItem) :
  (g.modifyItem f h).items.size = g.items.size
  := Array.size_modify ..

@[simp]
theorem extent_modifyBlock (q : QueryId) (h : Block → Block) :
  (g.modifyBlock q h).extent = g.extent
  := by
  simp [extent, modifyBlock]

@[simp]
theorem extent_modifyItem (f : FromId) (h : FromItem → FromItem) :
  (g.modifyItem f h).extent = g.extent
  := by
  simp [extent, modifyItem]

theorem FromId.ext_idx {f f' : FromId} (h : f.idx = f'.idx) : f = f' := by
  cases f
  cases f'
  simp_all

theorem QueryId.ext_idx {q q' : QueryId} (h : q.idx = q'.idx) : q = q' := by
  cases q
  cases q'
  simp_all

namespace WellFormed

/-- A new block under a block made before it, with expressions within the graph, keeps a graph
well-formed. -/
theorem pushBlock (hg : g.WellFormed) (b : Block) (hid : b.id = ⟨g.blocks.size⟩)
    (hparent : ∀ p, b.parent = some p → p.idx < g.blocks.size) (hfrom : b.fromList = [])
    (hexprs : ∀ e ∈ b.expressions, e.Within g.extent)
    (hfetches : ∀ s, b.body = .select s → s.fetches = []) :
  ({ g with blocks := g.blocks.push b } : Graph).WellFormed
  := by
  have hx : g.extent ≤ ({ g with blocks := g.blocks.push b } : Graph).extent := by
    simp [Extent.le_iff, extent]
  constructor
  · exact hg.itemId
  · intro q hq
    rw [block_push]
    split
    · rename_i hq'
      rw [hid]
      exact QueryId.ext_idx hq'.symm
    · simp only [Array.size_push] at hq
      exact hg.blockId q (by omega)
  · intro f hf
    simp only [Array.size_push]
    exact Nat.lt_succ_of_lt (hg.owner f hf)
  · intro f j hj
    obtain ⟨ht, hp, hx'⟩ := hg.join f j hj
    exact ⟨ht, hp, fun x hxe => Expr.Within.mono hx _ (hx' x hxe)⟩
  · intro q p hqp
    rw [block_push] at hqp
    split at hqp
    · rename_i hq'
      rw [hq']
      exact hparent p hqp
    · exact hg.parent q p hqp
  · intro q f hf
    rw [block_push] at hf
    split at hf
    · rw [hfrom] at hf
      cases hf
    · exact hg.fromList q f hf
  · intro q
    rw [block_push]
    split
    · rw [hfrom]
      exact List.nodup_nil
    · exact hg.fromNodup q
  · intro q e he
    rw [block_push] at he
    split at he
    · exact Expr.Within.mono hx _ (hexprs e he)
    · exact Expr.Within.mono hx _ (hg.exprs q e he)
  · intro q s hs x hxs
    rw [block_push] at hs
    split at hs
    · rw [hfetches s hs] at hxs
      cases hxs
    · exact hg.fetches q s hs x hxs
  · exact hg.acyclic

/-- A new item of a block the graph has, joined (if at all) to an item the graph has, keeps a
graph well-formed. -/
theorem pushItem (hg : g.WellFormed) (i : FromItem) (hid : i.id = ⟨g.items.size⟩)
    (howner : i.owner.idx < g.blocks.size)
    (hjoin : ∀ j, i.join = some j → j.link.target = ⟨g.items.size⟩ ∧
      j.link.parent.idx < g.items.size ∧
      ∀ x ∈ j.extra, x.Within ({ g with items := g.items.push i } : Graph).extent) :
  ({ g with items := g.items.push i } : Graph).WellFormed
  := by
  have hx : g.extent ≤ ({ g with items := g.items.push i } : Graph).extent := by
    simp [Extent.le_iff, extent]
  have hsize : ({ g with items := g.items.push i } : Graph).items.size = g.items.size + 1 :=
    Array.size_push _
  constructor
  · intro f hf
    rw [item_push]
    split
    · rename_i hf'
      rw [hid]
      exact FromId.ext_idx hf'.symm
    · exact hg.itemId f (by omega)
  · exact hg.blockId
  · intro f hf
    rw [item_push]
    split
    · exact howner
    · exact hg.owner f (by omega)
  · intro f j hj
    rw [item_push] at hj
    split at hj
    · rename_i hf
      obtain ⟨ht, hp, hextra⟩ := hjoin j hj
      exact ⟨ht.trans (FromId.ext_idx hf.symm), by omega, hextra⟩
    · obtain ⟨ht, hp, hextra⟩ := hg.join f j hj
      exact ⟨ht, by omega, fun x hxe => Expr.Within.mono hx _ (hextra x hxe)⟩
  · exact hg.parent
  · intro q f hf
    obtain ⟨hlt, howns⟩ := hg.fromList q f hf
    refine ⟨by omega, ?_⟩
    rw [item_push, if_neg (Nat.ne_of_lt hlt)]
    exact howns
  · exact hg.fromNodup
  · intro q e he
    exact Expr.Within.mono hx _ (hg.exprs q e he)
  · intro q s hs x hxs
    obtain ⟨ho, ht⟩ := hg.fetches q s hs x hxs
    exact ⟨by omega, by omega⟩
  · cases hij : i.join with
    | none =>
      refine Subrelation.wf (fun {p f} hpf => ?_) hg.acyclic
      obtain ⟨j, hj, rfl⟩ := hpf
      rw [item_push] at hj
      split at hj
      · rw [hij] at hj
        cases hj
      · exact ⟨j, hj, rfl⟩
    | some j =>
      refine wellFounded_addStep (t := ⟨g.items.size⟩) (p := j.link.parent) hg.acyclic ?_
        (hg.not_reflTransGen_new (hjoin j hij).2.1)
      rintro p f ⟨j', hj', rfl⟩
      rw [item_push] at hj'
      split at hj'
      · rename_i hf
        rw [hij] at hj'
        cases hj'
        exact Or.inr ⟨FromId.ext_idx hf, rfl⟩
      · exact Or.inl ⟨j', hj', rfl⟩

/-- A new parameter keeps a graph well-formed. -/
theorem pushArgument (hg : g.WellFormed) (a : Argument) :
  ({ g with arguments := g.arguments.push a } : Graph).WellFormed
  := by
  have hx : g.extent ≤ ({ g with arguments := g.arguments.push a } : Graph).extent := by
    simp [Extent.le_iff, extent]
  refine ⟨hg.itemId, hg.blockId, hg.owner, fun f j hj => ?_, hg.parent, hg.fromList,
    hg.fromNodup, fun q e he => Expr.Within.mono hx _ (hg.exprs q e he), hg.fetches, hg.acyclic⟩
  obtain ⟨ht, hp, hextra⟩ := hg.join f j hj
  exact ⟨ht, hp, fun x hxe => Expr.Within.mono hx _ (hextra x hxe)⟩

/-- The tables of correlated sub-queries play no part in well-formedness. -/
theorem withTables (hg : g.WellFormed) (ts : List Table) :
  ({ g with correlatedTables := ts } : Graph).WellFormed
  := ⟨hg.itemId, hg.blockId, hg.owner, hg.join, hg.parent, hg.fromList, hg.fromNodup, hg.exprs,
    hg.fetches, hg.acyclic⟩

/-- Changing one block keeps a graph well-formed when the block keeps its index and parent and
its new parts are as a well-formed block's are. -/
theorem modifyBlock (hg : g.WellFormed) (q : QueryId) (h : Block → Block)
    (hid : (h (g.block q)).id = (g.block q).id)
    (hparent : (h (g.block q)).parent = (g.block q).parent)
    (hfrom : ∀ f ∈ (h (g.block q)).fromList, f.idx < g.items.size ∧ (g.item f).owner = q)
    (hnodup : (h (g.block q)).fromList.Nodup)
    (hexprs : ∀ e ∈ (h (g.block q)).expressions, e.Within g.extent)
    (hfetches : ∀ s, (h (g.block q)).body = .select s → ∀ x ∈ s.fetches,
      x.owner.idx < g.items.size ∧ x.target.idx < g.items.size) :
  (g.modifyBlock q h).WellFormed
  := by
  have hsame : ∀ q', q'.idx = q.idx → q' = q := fun q' h => QueryId.ext_idx h
  refine ⟨hg.itemId, fun q' hq' => ?_, fun f hf => ?_, fun f j hj => ?_, fun q' p hp => ?_,
    fun q' f hf => ?_, fun q' => ?_, fun q' e he => ?_, fun q' s hs x hxs => ?_, hg.acyclic⟩
  · rw [size_blocks_modifyBlock] at hq'
    rw [block_modifyBlock]
    split
    · rename_i hqq
      rw [hid, hsame q' hqq.1]
      exact hg.blockId q hqq.2
    · exact hg.blockId q' hq'
  · simpa using hg.owner f hf
  · simpa using hg.join f j hj
  · rw [block_modifyBlock] at hp
    split at hp
    · rename_i hqq
      rw [hparent] at hp
      rw [hsame q' hqq.1]
      exact hg.parent q p hp
    · exact hg.parent q' p hp
  · rw [block_modifyBlock] at hf
    split at hf
    · rename_i hqq
      rw [hsame q' hqq.1]
      simpa using hfrom f hf
    · simpa using hg.fromList q' f hf
  · rw [block_modifyBlock]
    split
    · exact hnodup
    · exact hg.fromNodup q'
  · rw [block_modifyBlock] at he
    rw [extent_modifyBlock]
    split at he
    · exact hexprs e he
    · exact hg.exprs q' e he
  · rw [block_modifyBlock] at hs
    split at hs
    · simpa using hfetches s hs x hxs
    · simpa using hg.fetches q' s hs x hxs

/-- Changing one item keeps a graph well-formed when the item keeps its index and block, its
join joins it to an item the graph has, and the joins stay acyclic. -/
theorem modifyItem (hg : g.WellFormed) (f : FromId) (h : FromItem → FromItem)
    (hid : (h (g.item f)).id = (g.item f).id)
    (howner : (h (g.item f)).owner = (g.item f).owner)
    (hjoin : ∀ j, (h (g.item f)).join = some j →
      j.link.target = f ∧ j.link.parent.idx < g.items.size ∧ ∀ x ∈ j.extra, x.Within g.extent)
    (hacyclic : WellFounded (g.modifyItem f h).JoinParent) :
  (g.modifyItem f h).WellFormed
  := by
  have hsame : ∀ f', f'.idx = f.idx → f' = f := fun f' h => FromId.ext_idx h
  have hsize : (g.modifyItem f h).items.size = g.items.size := size_items_modifyItem f h
  refine ⟨fun f' hf' => ?_, hg.blockId, fun f' hf' => ?_, fun f' j hj => ?_, hg.parent,
    fun q f' hf' => ?_, hg.fromNodup, fun q e he => ?_, fun q s hs x hxs => ?_, hacyclic⟩
  · rw [item_modifyItem]
    split
    · rename_i hff
      rw [hid, hsame f' hff.1]
      exact hg.itemId f hff.2
    · exact hg.itemId f' (by omega)
  · rw [item_modifyItem]
    split
    · rename_i hff
      rw [howner]
      exact hg.owner f hff.2
    · exact hg.owner f' (by omega)
  · rw [item_modifyItem] at hj
    rw [hsize, extent_modifyItem]
    split at hj
    · rename_i hff
      rw [hsame f' hff.1]
      exact hjoin j hj
    · exact hg.join f' j hj
  · obtain ⟨hlt, howns⟩ := hg.fromList q f' hf'
    refine ⟨by omega, ?_⟩
    rw [item_modifyItem]
    split
    · rename_i hff
      rw [howner, ← hsame f' hff.1]
      exact howns
    · exact howns
  · rw [extent_modifyItem]
    exact hg.exprs q e he
  · rw [hsize]
    exact hg.fetches q s hs x hxs

end WellFormed

/-- An item changed without moving its join's parent is joined where it was. -/
theorem joinParent_modifyItem {f : FromId} {h : FromItem → FromItem}
    (hj : ((h (g.item f)).join.map (·.link.parent)) = (g.item f).join.map (·.link.parent)) :
  (g.modifyItem f h).JoinParent = g.JoinParent
  := by
  funext p f'
  apply propext
  simp only [JoinParent, item_modifyItem]
  split
  · rename_i hff
    rw [FromId.ext_idx hff.1]
    constructor
    · rintro ⟨j, hj', rfl⟩
      rw [hj', Option.map_some] at hj
      obtain ⟨j'', hj'', he⟩ := Option.map_eq_some_iff.mp hj.symm
      exact ⟨j'', hj'', he⟩
    · rintro ⟨j, hj', rfl⟩
      rw [hj', Option.map_some] at hj
      obtain ⟨j'', hj'', he⟩ := Option.map_eq_some_iff.mp hj
      exact ⟨j'', hj'', he⟩
  · exact Iff.rfl

end Graph

end EntityQuery
