import Mathlib
import EntityQuery.Proofs.Graph.Optimized
import EntityQuery.Proofs.Graph.Placed
import EntityQuery.Proofs.Query.Binding

/-!
# Binding keeps the graph well-formed

A binder is `Binder.Formed` when its graph is well-formed and places its items
(`Graph.Placed`), and every to-one step it remembers reached an item the graph has. Every step of binding keeps a formed binder formed and only
lets its graph grow, and every index it gives back names something the graph has then: a new
block, an item declared or joined, a parameter's slot, or an expression whose items,
blocks and parameters are the graph's. The triples below say so with the binder `b₀` a step
starts from as their logical variable, which `mvcgen` takes to be the binder at the call.

A step that adds an item to a block or joins it to an item needs that block and that item in
the graph: these are the preconditions of `pushItem_spec`, `addJoined_spec`, `joinToOne_spec`,
`navigate_spec` and `declarePath_spec`.
-/

open Std.Do

set_option mvcgen.warning false

namespace EntityQuery

/-- A binder whose graph is well-formed and places its items, and whose remembered to-one steps
reach items it has. -/
structure Binder.Formed (b : Binder) : Prop where
  graph : b.graph.WellFormed
  paths : ∀ k f, (k, f) ∈ b.paths → f.idx < b.graph.items.size
  placed : b.graph.Placed

/-- What `lookup` finds is one of the pairs of the list. -/
theorem mem_of_lookup_eq_some {l : List (PathKey × FromId)} {k : PathKey} {f : FromId}
    (h : l.lookup k = some f) :
  (k, f) ∈ l
  := by
  induction l with
  | nil => cases h
  | cons p l ih =>
    obtain ⟨k', f'⟩ := p
    simp only [List.lookup] at h
    split at h
    · rename_i hk
      rw [beq_iff_eq.mp hk, Option.some.inj h]
      exact List.mem_cons_self ..
    · exact List.mem_cons_of_mem _ (ih h)

/-- The test that a discriminator filter makes reads a column of its item. -/
theorem within_discriminatorFilter {f : FromId} {e : Entity} {x : Expr} {ext : Extent}
    (hf : f.idx < ext.items) (h : discriminatorFilter f e = some x) :
  x.Within ext
  := by
  simp only [discriminatorFilter, Option.map_eq_some_iff] at h
  obtain ⟨d, -, rfl⟩ := h
  exact ⟨hf, trivial⟩

namespace Graph

variable {g : Graph}

/-- The items of the FROM list of a block of a well-formed graph are items of the graph, each
stored at its own index. -/
theorem WellFormed.mem_liveItems (hg : g.WellFormed) {q : QueryId} {i : FromItem}
    (hi : i ∈ g.liveItems q) :
  i.id.idx < g.items.size
  := by
  obtain ⟨f, hf, rfl⟩ := List.mem_map.mp hi
  obtain ⟨hr, -⟩ := hg.fromList q f hf
  rw [hg.itemId f hr]
  exact hr

namespace WellFormed

/-- A filter within the graph added to a block keeps a graph well-formed. -/
theorem addFilter (hg : g.WellFormed) (q : QueryId) {x : Expr} (hx : x.Within g.extent) :
  (g.modifyBlock q fun blk => { blk with filters := blk.filters ++ [x] }).WellFormed
  := by
  apply hg.modifyBlock q _ rfl rfl (hg.fromList q) (hg.fromNodup q) _ (hg.fetches q)
  intro e he
  simp only [Block.expressions, List.mem_append, List.mem_singleton] at he
  rcases he with (he | rfl) | he
  · exact hg.exprs q e (by simp [Block.expressions, he])
  · exact hx
  · exact hg.exprs q e (by simp [Block.expressions, he])

/-- A new item at the end of the FROM list of a block the graph has, joined (if at all) to an
item the graph has, keeps a graph well-formed. -/
theorem addItem (hg : g.WellFormed) (q : QueryId) (hq : q.idx < g.blocks.size) (i : FromItem)
    (hid : i.id = ⟨g.items.size⟩) (howner : i.owner = q)
    (hjoin : ∀ j, i.join = some j → j.link.target = ⟨g.items.size⟩ ∧
      j.link.parent.idx < g.items.size ∧
      ∀ x ∈ j.extra, x.Within ({ g with items := g.items.push i } : Graph).extent) :
  (({ g with items := g.items.push i } : Graph).modifyBlock q
    fun blk => { blk with fromList := blk.fromList ++ [⟨g.items.size⟩] }).WellFormed
  := by
  have hpush := hg.pushItem i hid (howner ▸ hq) hjoin
  apply hpush.modifyBlock q _ rfl rfl
  · intro f hf
    rcases List.mem_append.mp hf with hf | hf
    · obtain ⟨hr, ho⟩ := hg.fromList q f hf
      refine ⟨by simp only [Array.size_push]; omega, ?_⟩
      rw [item_push, if_neg (Nat.ne_of_lt hr)]
      exact ho
    · rw [List.mem_singleton.mp hf]
      refine ⟨by simp, ?_⟩
      rw [item_push, if_pos rfl]
      exact howner
  · refine List.nodup_append.mpr ⟨hg.fromNodup q, List.nodup_singleton _, ?_⟩
    intro f hf f' hf' hff
    rw [List.mem_singleton.mp hf'] at hff
    have hr := (hg.fromList q f hf).1
    rw [hff] at hr
    exact Nat.lt_irrefl _ hr
  · exact hpush.exprs q
  · exact hpush.fetches q

end WellFormed

end Graph

namespace Binder

variable {b : Binder}

/-- The item an alias names is an item of the graph. -/
theorem lookupAlias_lt (hb : b.graph.WellFormed) {q : QueryId} {name : String} {f : FromId}
    (h : b.lookupAlias q name = some f) :
  f.idx < b.graph.items.size
  := by
  unfold lookupAlias at h
  generalize b.graph.blocks.size + 1 = n at h
  induction n generalizing q with
  | zero => cases h
  | succ n ih =>
    rw [lookupAlias.go] at h
    split at h
    · rename_i i hi
      cases h
      exact hb.mem_liveItems (List.mem_of_find?_eq_some hi)
    · split at h
      · exact ih h
      · cases h

/-- The first item of a block is an item of the graph. -/
theorem firstItem_lt (hb : b.graph.WellFormed) {q : QueryId} {f : FromId}
    (h : b.firstItem q = some f) :
  f.idx < b.graph.items.size
  := (hb.fromList q f (List.mem_of_mem_head? h)).1

/-- An entity's identity columns are columns of its item. -/
theorem within_entityKeys {f : FromId} {x : Extent} (hf : f.idx < x.items) :
  ∀ k ∈ b.entityKeys f, k.Within x
  := by
  intro k hk
  obtain ⟨c, -, rfl⟩ := List.mem_map.mp hk
  exact hf

/-- An expression taken as one value holds what the expression held. -/
theorem within_toScalar {e r : Expr} {x : Extent} (h : b.toScalar e = .ok r) (he : e.Within x) :
  r.Within x
  := by
  unfold toScalar at h
  split at h
  · split at h
    · rename_i k hk
      cases h
      exact within_entityKeys he k (by rw [hk]; exact List.mem_singleton_self k)
    · cases h
  · cases h
  · cases h
  · cases h
    exact he

/-- The values an expression stands for hold what the expression held. -/
theorem within_toValues {e : Expr} {vs : List Expr} {x : Extent} (h : b.toValues e = .ok vs)
    (he : e.Within x) :
  ∀ v ∈ vs, v.Within x
  := by
  unfold toValues at h
  split at h
  · cases h
    intro v hv
    obtain ⟨k, hk, rfl⟩ := List.mem_map.mp hv
    exact within_entityKeys he k hk
  · cases hs : b.toScalar e with
    | error r => simp [hs] at h; cases h
    | ok r =>
      simp only [hs, Except.map] at h
      cases h
      intro v hv
      rw [List.mem_singleton.mp hv]
      exact within_toScalar hs he

namespace Formed

/-- A binder whose graph grows into a well-formed one that places its items stays formed. -/
theorem withGraph (hb : b.Formed) {g : Graph} (hg : g.WellFormed) (hp : g.Placed)
    (hx : b.graph.items.size ≤ g.items.size) :
  ({ b with graph := g } : Binder).Formed
  := ⟨hg, fun k f hkf => Nat.lt_of_lt_of_le (hb.paths k f hkf) hx, hp⟩

/-- Renaming an item keeps a binder formed. -/
theorem renameItem (hb : b.Formed) (f : FromId) (name : String) :
  ({ b with graph := b.graph.modifyItem f fun i => { i with sqlName := name } } : Binder).Formed
  := hb.withGraph (hb.graph.modifyItem_sameJoin f _ (fun _ => rfl) (fun _ => rfl) fun _ => rfl)
    (hb.placed.modifyItem f _ (fun _ => rfl) fun _ => rfl) (by simp)

/-- A filter within the graph added to a block keeps a binder formed. -/
theorem addFilter (hb : b.Formed) (q : QueryId) {x : Expr} (hx : x.Within b.graph.extent) :
  ({ b with graph := b.graph.modifyBlock q fun blk => { blk with filters := blk.filters ++ [x] } } :
    Binder).Formed
  := hb.withGraph (hb.graph.addFilter q hx) (hb.placed.modifyBlock q _ fun _ => rfl) (by simp)

/-- Recording the tables of correlated sub-queries keeps a binder formed. -/
theorem withTables (hb : b.Formed) (ts : List Table) :
  ({ b with graph := { b.graph with correlatedTables := ts } } : Binder).Formed
  := ⟨hb.graph.withTables ts, hb.paths, hb.placed.listed, hb.placed.extra⟩

/-- A remembered step reached an item of the graph. -/
theorem lookup_lt (hb : b.Formed) {k : PathKey} {f : FromId} (h : b.paths.lookup k = some f) :
  f.idx < b.graph.items.size
  := hb.paths k f (mem_of_lookup_eq_some h)

/-- Remembering a step that reached an item of the graph keeps a binder formed. -/
theorem remember (hb : b.Formed) (k : PathKey) {f : FromId} (hf : f.idx < b.graph.items.size) :
  ({ b with paths := b.paths ++ [(k, f)] } : Binder).Formed
  := by
  refine ⟨hb.graph, fun k' f' hkf => ?_, hb.placed⟩
  rcases List.mem_append.mp hkf with hkf | hkf
  · exact hb.paths k' f' hkf
  · cases List.mem_singleton.mp hkf
    exact hf

end Formed

end Binder

namespace Binding

/-- A new block under a block the graph has, with a body within the graph and no `JOIN FETCH`
declarations, keeps a binder formed. -/
theorem newQuery_formed (parent : Option QueryId) (body : Body) (b₀ : Binder) :
  ⦃fun b => ⌜b.Formed ∧ b₀.graph.extent ≤ b.graph.extent ∧
      (∀ p, parent = some p → p.idx < b.graph.blocks.size) ∧
      (∀ e ∈ body.expressions, e.Within b.graph.extent) ∧
      ∀ s, body = .select s → s.fetches = []⌝⦄
  newQuery parent body
  ⦃⇓? q b => ⌜b.Formed ∧ b₀.graph.extent ≤ b.graph.extent ∧ q.idx < b.graph.blocks.size⌝⦄
  := by
  mvcgen [newQuery] with
  | vc1 hb t =>
    simp only [t]
    obtain ⟨hf, hx, hp, he, hs⟩ := hb
    refine ⟨hf.withGraph (hf.graph.pushBlock _ rfl hp rfl (by simpa [Block.expressions] using he)
      hs) (hf.placed.pushBlock hf.graph _) (Nat.le_refl _), ?_, by simp⟩
    simp only [Extent.le_iff, Graph.extent, Array.size_push] at hx ⊢
    omega

/-- A new item of a block the graph has, joined (if at all) to an item the graph has, keeps a
binder formed; the item is one of the graph's. -/
theorem pushItem_formed (q : QueryId) (aliasName : String) (table : Table)
    (entity : Option Entity) (join : Option Join) (semantics : JoinSemantics) (b₀ : Binder) :
  ⦃fun b => ⌜b.Formed ∧ b₀.graph.extent ≤ b.graph.extent ∧ q.idx < b.graph.blocks.size ∧
      ∀ j, join = some j → j.link.target = ⟨b.graph.items.size⟩ ∧
        j.link.parent.idx < b.graph.items.size ∧
        ∀ x ∈ j.extra, x.Within ⟨b.graph.items.size + 1, b.graph.blocks.size,
          b.graph.arguments.size⟩ ∧ x.IsDiscriminatorOf ⟨b.graph.items.size⟩⌝⦄
  pushItem q aliasName table entity join semantics
  ⦃⇓? f b => ⌜b.Formed ∧ b₀.graph.extent ≤ b.graph.extent ∧ f.idx < b.graph.items.size⌝⦄
  := by
  mvcgen [pushItem] with
  | vc1 hb t =>
    simp only [t]
    obtain ⟨hf, hx, hq, hj⟩ := hb
    refine ⟨hf.withGraph (hf.graph.addItem q hq _ rfl rfl fun j hjj => ?_)
      (hf.placed.addItem q hq _ rfl fun j hjj x hxe => ((hj j hjj).2.2 x hxe).2) (by simp), ?_,
      by simp⟩
    · obtain ⟨ht, hp, he⟩ := hj j hjj
      refine ⟨ht, hp, fun x hxe => ?_⟩
      simpa [Graph.extent] using (he x hxe).1
    · simp only [Extent.le_iff, Graph.extent, Graph.size_blocks_modifyBlock,
        Graph.arguments_modifyBlock, Graph.items_modifyBlock, Array.size_push] at hx ⊢
      omega

theorem checkAliasFree_formed (q : QueryId) (aliasName : String) (b₀ : Binder) :
  ⦃fun b => ⌜b.Formed ∧ b₀.graph.extent ≤ b.graph.extent⌝⦄
  checkAliasFree q aliasName
  ⦃⇓? _ b => ⌜b.Formed ∧ b₀.graph.extent ≤ b.graph.extent⌝⦄
  := by
  mvcgen [checkAliasFree]

theorem resolveEntity_formed (name : String) (b₀ : Binder) :
  ⦃fun b => ⌜b.Formed ∧ b₀.graph.extent ≤ b.graph.extent⌝⦄
  resolveEntity name
  ⦃⇓? _ b => ⌜b.Formed ∧ b₀.graph.extent ≤ b.graph.extent⌝⦄
  := by
  mvcgen [resolveEntity]

theorem itemEntity_formed (f : FromId) (field : String) (b₀ : Binder) :
  ⦃fun b => ⌜b.Formed ∧ b₀.graph.extent ≤ b.graph.extent⌝⦄
  itemEntity f field
  ⦃⇓? _ b => ⌜b.Formed ∧ b₀.graph.extent ≤ b.graph.extent⌝⦄
  := by
  mvcgen [itemEntity]

theorem fieldOf_formed (e : Entity) (field : String) (b₀ : Binder) :
  ⦃fun b => ⌜b.Formed ∧ b₀.graph.extent ≤ b.graph.extent⌝⦄
  fieldOf e field
  ⦃⇓? _ b => ⌜b.Formed ∧ b₀.graph.extent ≤ b.graph.extent⌝⦄
  := by
  mvcgen [fieldOf]

theorem generateAlias_formed (b₀ : Binder) :
  ⦃fun b => ⌜b.Formed ∧ b₀.graph.extent ≤ b.graph.extent⌝⦄
  generateAlias
  ⦃⇓? _ b => ⌜b.Formed ∧ b₀.graph.extent ≤ b.graph.extent⌝⦄
  := by
  mvcgen [generateAlias] with
  | vc1 hb t =>
    simp only [t]
    exact ⟨⟨hb.1.graph, hb.1.paths, hb.1.placed⟩, hb.2⟩

/-- Declaring a root adds an item of a block the graph has; a bulk target is renamed, and a
discriminator filters the block with a test of the new item. -/
theorem declareRoot_formed (q : QueryId) (entity : Entity) (aliasName : String) (bulk : Bool)
    (b₀ : Binder) :
  ⦃fun b => ⌜b.Formed ∧ b₀.graph.extent ≤ b.graph.extent ∧ q.idx < b.graph.blocks.size⌝⦄
  declareRoot q entity aliasName bulk
  ⦃⇓? f b => ⌜b.Formed ∧ b₀.graph.extent ≤ b.graph.extent ∧ f.idx < b.graph.items.size⌝⦄
  := by
  mvcgen [declareRoot, checkAliasFree_formed, pushItem_formed] with
  | vc5 _ _ _ _ hs1 r _ _ _ hs _ _ _ hfilter _ =>
    simp +zetaDelta only
    obtain ⟨hf, hx, hr⟩ := hs
    refine ⟨(hf.renameItem r _).addFilter q (within_discriminatorFilter ?_ hfilter), ?_, by simpa using hr⟩
    · simpa using hr
    · simp only [Graph.extent_modifyBlock, Graph.extent_modifyItem]
      grind
  | vc6 _ _ _ _ _ r _ _ _ hs _ _ _ =>
    simp +zetaDelta only
    obtain ⟨hf, hx, hr⟩ := hs
    refine ⟨hf.renameItem r _, ?_, by simpa using hr⟩
    simp only [Graph.extent_modifyItem]
    grind
  | vc7 _ _ _ _ _ r _ _ _ hfilter _ hs _ =>
    simp +zetaDelta only
    obtain ⟨hf, hx, hr⟩ := hs
    refine ⟨hf.addFilter q (within_discriminatorFilter hr hfilter), ?_, by simpa using hr⟩
    simp only [Graph.extent_modifyBlock]
    grind
  all_goals grind

/-- A joined item is an item of a block the graph has, joined to an item the graph has, with
its target's discriminator as the join's filter. -/
theorem addJoined_formed (q : QueryId) (aliasName : String) (entity : Option Entity)
    (table : Table) (parent : FromId) (pairs : List (String × String)) (kind : JoinKind)
    (semantics : JoinSemantics) (b₀ : Binder) :
  ⦃fun b => ⌜b.Formed ∧ b₀.graph.extent ≤ b.graph.extent ∧ q.idx < b.graph.blocks.size ∧
      parent.idx < b.graph.items.size⌝⦄
  addJoined q aliasName entity table parent pairs kind semantics
  ⦃⇓? f b => ⌜b.Formed ∧ b₀.graph.extent ≤ b.graph.extent ∧ f.idx < b.graph.items.size⌝⦄
  := by
  mvcgen [addJoined, pushItem_formed] with
  | vc1 hb target extra =>
    obtain ⟨hf, hx, hq, hp⟩ := hb
    refine ⟨hf, hx, hq, ?_⟩
    rintro j ⟨⟩
    refine ⟨rfl, hp, fun x hxe => ?_⟩
    simp only [extra, target, Option.mem_def, Option.bind_eq_some_iff] at hxe
    obtain ⟨e, -, he⟩ := hxe
    exact ⟨within_discriminatorFilter (Nat.lt_succ_self _) he,
      discriminatorFilter_isDiscriminatorOf he⟩

/-- A to-one step joins an item of a block the graph has to an item the graph has, or finds
the item the same step reached before. -/
theorem joinToOne_formed (q : QueryId) (parent : FromId) (entity : Entity)
    (field target : String) (columns : List String) (semantics : JoinSemantics)
    (aliasName : Option String) (b₀ : Binder) :
  ⦃fun b => ⌜b.Formed ∧ b₀.graph.extent ≤ b.graph.extent ∧ q.idx < b.graph.blocks.size ∧
      parent.idx < b.graph.items.size⌝⦄
  joinToOne q parent entity field target columns semantics aliasName
  ⦃⇓? f b => ⌜b.Formed ∧ b₀.graph.extent ≤ b.graph.extent ∧ f.idx < b.graph.items.size⌝⦄
  := by
  cases aliasName <;>
    mvcgen [joinToOne, resolveEntity_formed, generateAlias_formed, addJoined_formed]
  all_goals first
    | grind
    | (rename_i hs _ hlookup
       exact ⟨hs.1, hs.2.1, hs.1.lookup_lt hlookup⟩)
    | (rename_i hs t
       simp only [t]
       split
       · exact ⟨hs.1, by grind, hs.2.2⟩
       · exact ⟨hs.1.remember _ hs.2.2, by grind, hs.2.2⟩)

/-- A collection of an item of the graph is read through that item's identity columns. -/
theorem collection_formed (parent : FromId) (entity : Entity) (field : String) (kind : FieldKind)
    (b₀ : Binder) :
  ⦃fun b => ⌜b.Formed ∧ b₀.graph.extent ≤ b.graph.extent ∧ parent.idx < b.graph.items.size⌝⦄
  collection parent entity field kind
  ⦃⇓? c b => ⌜b.Formed ∧ b₀.graph.extent ≤ b.graph.extent ∧ c.Within b.graph.extent⌝⦄
  := by
  mvcgen [collection, resolveEntity_formed, generateAlias_formed]
  all_goals first
    | grind
    | (rename_i hs _ _ t
       simp only [t]
       split
       · exact ⟨hs.1, Extent.le_refl _⟩
       · exact ⟨hs.1.withTables _, Extent.le_refl _⟩)
    | (simp +zetaDelta only [CollectionRef.Within, ColumnRef.Within, List.mem_map]
       grind)

/-- A step of a path from an item of the graph stands for a column of the item, a joined item
or a collection of the item. -/
theorem navigate_formed (q : QueryId) (parent : FromId) (field : String)
    (semantics : JoinSemantics) (b₀ : Binder) :
  ⦃fun b => ⌜b.Formed ∧ b₀.graph.extent ≤ b.graph.extent ∧ q.idx < b.graph.blocks.size ∧
      parent.idx < b.graph.items.size⌝⦄
  navigate q parent field semantics
  ⦃⇓? r b => ⌜b.Formed ∧ b₀.graph.extent ≤ b.graph.extent ∧ r.toExpr.Within b.graph.extent⌝⦄
  := by
  mvcgen [navigate, itemEntity_formed, fieldOf_formed, joinToOne_formed, collection_formed]
  all_goals grind [Bound.toExpr, Expr.Within, ColumnRef.Within]

/-- Declaring the last step of a FROM path gives an item of the graph: a joined target, or for
a many-to-many collection an association item and the target joined to it. -/
theorem declarePath_formed (q : QueryId) (parent : FromId) (field aliasName : String)
    (semantics : JoinSemantics) (b₀ : Binder) :
  ⦃fun b => ⌜b.Formed ∧ b₀.graph.extent ≤ b.graph.extent ∧ q.idx < b.graph.blocks.size ∧
      parent.idx < b.graph.items.size⌝⦄
  declarePath q parent field aliasName semantics
  ⦃⇓? f b => ⌜b.Formed ∧ b₀.graph.extent ≤ b.graph.extent ∧ f.idx < b.graph.items.size⌝⦄
  := by
  mvcgen [declarePath, checkAliasFree_formed, itemEntity_formed, fieldOf_formed, joinToOne_formed,
    resolveEntity_formed, addJoined_formed, generateAlias_formed]
  all_goals grind

/-- Marking an item as fetched keeps a binder formed. -/
theorem markFetch_formed (f : FromId) (b₀ : Binder) :
  ⦃fun b => ⌜b.Formed ∧ b₀.graph.extent ≤ b.graph.extent⌝⦄
  markFetch f
  ⦃⇓? _ b => ⌜b.Formed ∧ b₀.graph.extent ≤ b.graph.extent⌝⦄
  := by
  mvcgen [markFetch] with
  | vc1 hb t =>
    simp only [t, Graph.extent_modifyItem]
    exact ⟨hb.1.withGraph (hb.1.graph.modifyItem_sameJoin f _ (fun _ => rfl) (fun _ => rfl)
      fun _ => rfl) (hb.1.placed.modifyItem f _ (fun _ => rfl) fun _ => rfl) (by simp), hb.2⟩

/-- The slot of a parameter is one of the graph's. -/
theorem argument_formed (source : ArgSource) (b₀ : Binder) :
  ⦃fun b => ⌜b.Formed ∧ b₀.graph.extent ≤ b.graph.extent⌝⦄
  argument source
  ⦃⇓? i b => ⌜b.Formed ∧ b₀.graph.extent ≤ b.graph.extent ∧ i < b.graph.arguments.size⌝⦄
  := by
  mvcgen [argument] with
  | vc2 hb _ _ _ hi =>
    exact ⟨⟨hb.1.graph, hb.1.paths, hb.1.placed⟩, hb.2,
      (Array.findIdx?_eq_some_iff_findIdx_eq.mp hi).1⟩
  | vc3 hb _ _ _ t =>
    simp only [t]
    refine ⟨⟨hb.1.graph.pushArgument _, hb.1.paths, hb.1.placed.listed, hb.1.placed.extra⟩, ?_,
      by simp⟩
    simp only [Extent.le_iff, Graph.extent, Array.size_push] at hb ⊢
    omega

end Binding

end EntityQuery
