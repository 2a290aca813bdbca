import Mathlib
import EntityQuery.Proofs.Query.Binding

/-!
# Lowered expressions

The grammar builds an expression from the bottom up, and a path in it is at first an entity or
a collection (`Expr.entityPath`, `Expr.collectionPath`). Each context that takes the
expression lowers it: a value takes the entity's one identity column, a list of values all of
them, a select item loads the entity whole (`Expr.loadEntity`), and a collection is only ever
the operand of `IS EMPTY`, `MEMBER OF` or `SIZE`, which keep its reference and no path.

`Expr.Every p e` says that `p` holds at every node of `e`, the children of a node being the
expressions the writer writes inside it (`Expr.children`). An expression is lowered when none
of its nodes is a path or an entity loaded whole, and shallow when its children are lowered:
a shallow expression is what a function of the grammar gives back, to be lowered by the
context it is read in.

A block is lowered when its select items are lowered or load an entity whole, and all its other
expressions are lowered; a graph is lowered when its blocks are, and the filter of each join is
lowered and holds no join. Each step of binding keeps a graph lowered.
-/

open Std.Do

set_option mvcgen.warning false

namespace EntityQuery

namespace Expr

/-- The expressions an expression is built from directly: those the writer writes inside it.
A sub-query is a block of its own and no child. -/
def children : Expr → List Expr
  | .unary _ e | .isNull e _ | .trim _ none e => [e]
  | .binary _ l r | .concat l r | .position l r | .like l r _ _ | .trim _ (some l) r => [l, r]
  | .between a b c _ | .caseWhen a b c => [a, b, c]
  | .inList e vs _ => e :: vs
  | .memberOf es _ _ | .call _ es _ | .conj es | .disj es => es
  | .join _ (some x) => [x]
  | _ => []

/-- `p` holds at every node of the expression. -/
inductive Every (p : Expr → Prop) : Expr → Prop
  | node {e : Expr} : p e → (∀ c ∈ e.children, Every p c) → Every p e

/-- A path not yet lowered: an entity or a collection. -/
def isPath : Expr → Bool
  | .entityPath _ | .collectionPath _ => true
  | _ => false

/-- An entity loaded whole. -/
def isLoad : Expr → Bool
  | .loadEntity _ => true
  | _ => false

/-- The join a condition `path = alias` expresses. -/
def isJoin : Expr → Bool
  | .join .. => true
  | _ => false

/-- No node of the expression is a path or an entity loaded whole. -/
def Lowered (e : Expr) : Prop :=
  e.Every fun x => x.isPath = false ∧ x.isLoad = false

/-- The children of the expression are lowered; the expression itself may be a path or an
entity loaded whole. -/
def Shallow (e : Expr) : Prop :=
  ∀ c ∈ e.children, c.Lowered

/-- No node of the expression is a join. -/
def JoinFree (e : Expr) : Prop :=
  e.Every fun x => x.isJoin = false

variable {p : Expr → Prop}

theorem every_iff {e : Expr} : e.Every p ↔ p e ∧ ∀ c ∈ e.children, c.Every p :=
  ⟨fun ⟨hp, hc⟩ => ⟨hp, hc⟩, fun ⟨hp, hc⟩ => .node hp hc⟩

theorem Every.mono {q : Expr → Prop} (hpq : ∀ x, p x → q x) {e : Expr} (h : e.Every p) :
  e.Every q
  := by
  induction h with
  | node hp _ ih => exact .node (hpq _ hp) ih

theorem lowered_iff {e : Expr} :
  e.Lowered ↔ e.isPath = false ∧ e.isLoad = false ∧ e.Shallow
  := by
  rw [Lowered, every_iff, and_assoc]
  rfl

theorem Lowered.shallow {e : Expr} (h : e.Lowered) : e.Shallow :=
  (lowered_iff.mp h).2.2

/-- A node with no children is lowered when it is neither a path nor a loaded entity. -/
theorem lowered_of_children {e : Expr} (hc : e.children = []) (hp : e.isPath = false)
    (hl : e.isLoad = false) :
  e.Lowered
  := lowered_iff.mpr ⟨hp, hl, by simp [Shallow, hc]⟩

/-- A node that is neither a path nor a loaded entity is lowered when its children are: with
the node tests evaluated, `simp` takes a built expression apart down to its operands. -/
theorem lowered_node {e : Expr} (h : e.isPath = false ∧ e.isLoad = false) :
  e.Lowered ↔ ∀ c ∈ e.children, c.Lowered
  := by
  rw [lowered_iff]
  simp [h, Shallow]

/-! ### Conjunctions and disjunctions -/

theorem every_flattenConj {ps : List Expr} (h : ∀ x ∈ ps, x.Every p) :
  ∀ x ∈ flattenConj ps, x.Every p
  := by
  induction ps with
  | nil => simp [flattenConj]
  | cons e es ih =>
    have hrest := ih fun x hx => h x (List.mem_cons_of_mem e hx)
    have he := h e List.mem_cons_self
    cases e with
    | conj inner =>
      intro x hx
      rcases List.mem_append.mp hx with hx | hx
      · exact (every_iff.mp he).2 x hx
      · exact hrest x hx
    | _ =>
      intro x hx
      rcases List.mem_cons.mp hx with rfl | hx
      · exact he
      · exact hrest x hx

theorem every_flattenDisj {ps : List Expr} (h : ∀ x ∈ ps, x.Every p) :
  ∀ x ∈ flattenDisj ps, x.Every p
  := by
  induction ps with
  | nil => simp [flattenDisj]
  | cons e es ih =>
    have hrest := ih fun x hx => h x (List.mem_cons_of_mem e hx)
    have he := h e List.mem_cons_self
    cases e with
    | disj inner =>
      intro x hx
      rcases List.mem_append.mp hx with hx | hx
      · exact (every_iff.mp he).2 x hx
      · exact hrest x hx
    | _ =>
      intro x hx
      rcases List.mem_cons.mp hx with rfl | hx
      · exact he
      · exact hrest x hx

/-- A conjunction of parts where `p` holds everywhere has `p` everywhere, when `p` holds of a
conjunction node. -/
theorem every_conjunction (hconj : ∀ ps, p (.conj ps)) {ps : List Expr}
    (h : ∀ x ∈ ps, x.Every p) :
  (conjunction ps).Every p
  := by
  have hflat := every_flattenConj h
  unfold conjunction
  split
  · next e heq => exact hflat e (by simp [heq])
  · exact .node (hconj _) hflat

theorem every_disjunction (hdisj : ∀ ps, p (.disj ps)) {ps : List Expr}
    (h : ∀ x ∈ ps, x.Every p) :
  (disjunction ps).Every p
  := by
  have hflat := every_flattenDisj h
  unfold disjunction
  split
  · next e heq => exact hflat e (by simp [heq])
  · exact .node (hdisj _) hflat

theorem lowered_conjunction {ps : List Expr} (h : ∀ x ∈ ps, x.Lowered) :
  (conjunction ps).Lowered
  := every_conjunction (fun _ => ⟨rfl, rfl⟩) h

theorem lowered_disjunction {ps : List Expr} (h : ∀ x ∈ ps, x.Lowered) :
  (disjunction ps).Lowered
  := every_disjunction (fun _ => ⟨rfl, rfl⟩) h

end Expr

/-! ### Lowering by the binder -/

namespace Binder

/-- The binder lowers a shallow expression to one value. -/
theorem lowered_toScalar {b : Binder} {e r : Expr} (h : b.toScalar e = .ok r)
    (he : e.Shallow) :
  r.Lowered
  := by
  unfold toScalar at h
  split at h
  · split at h
    · cases h
      exact Expr.lowered_of_children rfl rfl rfl
    · cases h
  · cases h
  · cases h
  · next hpath hcoll hload =>
    cases h
    refine Expr.lowered_iff.mpr ⟨?_, ?_, he⟩
    · cases e <;> simp_all [Expr.isPath]
    · cases e <;> simp_all [Expr.isLoad]

/-- The binder lowers a shallow expression to a list of values. -/
theorem lowered_toValues {b : Binder} {e : Expr} {vs : List Expr} (h : b.toValues e = .ok vs)
    (he : e.Shallow) :
  ∀ v ∈ vs, v.Lowered
  := by
  unfold toValues at h
  split at h
  · cases h
    simp only [List.mem_map]
    rintro _ ⟨k, -, rfl⟩
    exact Expr.lowered_of_children rfl rfl rfl
  · cases hs : b.toScalar e with
    | error r =>
      rw [hs] at h
      cases h
    | ok r =>
      rw [hs] at h
      cases h
      simp only [List.mem_singleton]
      rintro _ rfl
      exact lowered_toScalar hs he

end Binder

/-- A discriminator filter compares a column with a string: lowered, with no join. -/
theorem lowered_discriminatorFilter {f : FromId} {e : Entity} {x : Expr}
    (h : discriminatorFilter f e = some x) :
  x.Lowered ∧ x.JoinFree
  := by
  simp only [discriminatorFilter, Option.map_eq_some_iff] at h
  obtain ⟨d, -, rfl⟩ := h
  refine ⟨Expr.lowered_iff.mpr ⟨rfl, rfl, ?_⟩, .node rfl ?_⟩
  · simp only [Expr.Shallow, Expr.children, List.mem_cons, List.not_mem_nil, or_false]
    rintro c (rfl | rfl) <;> exact Expr.lowered_of_children rfl rfl rfl
  · simp only [Expr.children, List.mem_cons, List.not_mem_nil, or_false]
    rintro c (rfl | rfl) <;> exact .node rfl (by simp [Expr.children, Expr.col])

/-! ### Lowered blocks and graphs -/

/-- A select item loads an entity whole, or is lowered. -/
def Expr.ResultLowered (e : Expr) : Prop :=
  (∃ f, e = .loadEntity f) ∨ e.Lowered

/-- The items of a lowered SELECT load an entity whole or are lowered; its conditions and the
terms of GROUP BY and ORDER BY are lowered. -/
def SelectBody.Lowered (s : SelectBody) : Prop :=
  (∀ r ∈ s.results, r.ResultLowered) ∧ (∀ w ∈ s.whereClause, w.Lowered) ∧
    (∀ e ∈ s.groupBy, e.Lowered) ∧ (∀ h ∈ s.having, h.Lowered) ∧
    ∀ t ∈ s.orderBy, t.expr.Lowered

/-- The values and the condition of an UPDATE, and the condition of a DELETE, are lowered. -/
def Body.Lowered : Body → Prop
  | .select s => s.Lowered
  | .update a w => (∀ x ∈ a, x.value.Lowered) ∧ ∀ e ∈ w, e.Lowered
  | .delete w => ∀ e ∈ w, e.Lowered

/-- The filters of a lowered block are lowered, and so is its body. -/
def Block.Lowered (b : Block) : Prop :=
  (∀ e ∈ b.filters, e.Lowered) ∧ b.body.Lowered

/-- Every block of the graph is lowered, and the filter of each join is lowered and holds no
join. An index out of range reads a blank block or item, which is lowered. -/
structure Graph.Lowered (g : Graph) : Prop where
  blocks : ∀ q, (g.block q).Lowered
  joins : ∀ f j x, (g.item f).join = some j → j.extra = some x → x.Lowered ∧ x.JoinFree

/-- A SELECT body before its parts are read holds no expression. -/
theorem SelectBody.lowered_start (hasFrom : Bool) : ({ hasFrom } : SelectBody).Lowered := by
  simp [SelectBody.Lowered]

/-- A block keeps its filters when its body is replaced. -/
theorem Block.Lowered.withBody {b : Block} (hb : b.Lowered) {body : Body} (h : body.Lowered) :
  ({ b with body } : Block).Lowered
  := ⟨hb.1, h⟩

/-- The blank block, read at an index out of range, holds no expression. -/
theorem Block.lowered_default : (default : Block).Lowered := by
  have hfilters : (default : Block).filters = [] := rfl
  have hbody : (default : Block).body = .select {} := rfl
  simp [Block.Lowered, hfilters, hbody, Body.Lowered, SelectBody.Lowered]

namespace Graph.Lowered

variable {g : Graph}

/-- The graph reading starts with has no block and no item. -/
theorem empty : ({} : Graph).Lowered where
  blocks _ := Block.lowered_default
  joins _ _ _ h := by cases h

/-- Changing one block keeps a graph lowered when the changed block is lowered. -/
theorem modifyBlock (hg : g.Lowered) (q : QueryId) (h : Block → Block)
    (hq : (h (g.block q)).Lowered) :
  (g.modifyBlock q h).Lowered
  := by
  constructor
  · intro q'
    rw [block_modifyBlock]
    split
    · exact hq
    · exact hg.blocks q'
  · intro f j x hj hx
    exact hg.joins f j x hj hx

/-- Changing one item keeps a graph lowered when the changed item's join filter is lowered and
holds no join. -/
theorem modifyItem (hg : g.Lowered) (f : FromId) (h : FromItem → FromItem)
    (hf : ∀ j x, (h (g.item f)).join = some j → j.extra = some x → x.Lowered ∧ x.JoinFree) :
  (g.modifyItem f h).Lowered
  := by
  constructor
  · intro q
    exact hg.blocks q
  · intro f' j x hj hx
    rw [item_modifyItem] at hj
    split at hj
    · exact hf j x hj hx
    · exact hg.joins f' j x hj hx

/-- A change of an item that keeps its join. -/
theorem keepJoins (hg : g.Lowered) (f : FromId) (h : FromItem → FromItem)
    (hj : ∀ i, (h i).join = i.join) :
  (g.modifyItem f h).Lowered
  := hg.modifyItem f h fun j x hjx hx => hg.joins f j x (by rwa [hj] at hjx) hx

/-- A new item whose join filter is lowered and holds no join. -/
theorem pushItem (hg : g.Lowered) (i : FromItem)
    (hi : ∀ j x, i.join = some j → j.extra = some x → x.Lowered ∧ x.JoinFree) :
  ({ g with items := g.items.push i } : Graph).Lowered
  := by
  constructor
  · intro q
    exact hg.blocks q
  · intro f j x hj hx
    simp only [item, Array.getElem?_push] at hj
    split at hj
    · exact hi j x hj hx
    · exact hg.joins f j x hj hx

/-- A new item at the end of the FROM list of `q`, whose join filter is lowered and holds no
join. -/
theorem addItem (hg : g.Lowered) (q : QueryId) (i : FromItem)
    (hi : ∀ j x, i.join = some j → j.extra = some x → x.Lowered ∧ x.JoinFree) :
  (({ g with items := g.items.push i } : Graph).modifyBlock q
    fun blk => { blk with fromList := blk.fromList ++ [⟨g.items.size⟩] }).Lowered
  := (hg.pushItem i hi).modifyBlock q _ ((hg.pushItem i hi).blocks q)

/-- A new lowered block. -/
theorem pushBlock (hg : g.Lowered) (b : Block) (hb : b.Lowered) :
  ({ g with blocks := g.blocks.push b } : Graph).Lowered
  := by
  constructor
  · intro q
    simp only [block, Array.getElem?_push]
    split
    · exact hb
    · exact hg.blocks q
  · intro f j x hj hx
    exact hg.joins f j x hj hx

/-- A lowered filter added to the block `q`. -/
theorem addFilter (hg : g.Lowered) (q : QueryId) {x : Expr} (hx : x.Lowered) :
  (g.modifyBlock q fun blk => { blk with filters := blk.filters ++ [x] }).Lowered
  := by
  apply hg.modifyBlock
  obtain ⟨hfilters, hbody⟩ := hg.blocks q
  refine ⟨?_, hbody⟩
  simp only [List.mem_append, List.mem_singleton]
  rintro e (he | rfl)
  · exact hfilters e he
  · exact hx

/-- The parameters and the correlated tables play no part in lowering. -/
theorem withArguments (hg : g.Lowered) (arguments : Array Argument) :
  ({ g with arguments } : Graph).Lowered
  := ⟨hg.blocks, hg.joins⟩

theorem withTables (hg : g.Lowered) (ts : List Table) :
  ({ g with correlatedTables := ts } : Graph).Lowered
  := ⟨hg.blocks, hg.joins⟩

end Graph.Lowered

/-! ### Binding keeps the graph lowered -/

namespace Binding

/-- A new block keeps the graph lowered when its body is. -/
theorem newQuery_lowered (parent : Option QueryId) (body : Body) :
  ⦃fun b => ⌜b.graph.Lowered ∧ body.Lowered⌝⦄
  newQuery parent body
  ⦃⇓? _ b => ⌜b.graph.Lowered⌝⦄
  := by
  mvcgen [newQuery] with
  | vc1 _ hb _ => exact hb.1.pushBlock _ ⟨by simp, hb.2⟩

/-- A new item keeps the graph lowered when its join filter is lowered and holds no join. -/
theorem pushItem_lowered (q : QueryId) (aliasName : String) (table : Table)
    (entity : Option Entity) (join : Option Join) (semantics : JoinSemantics) :
  ⦃fun b => ⌜b.graph.Lowered ∧
      ∀ j x, join = some j → j.extra = some x → x.Lowered ∧ x.JoinFree⌝⦄
  pushItem q aliasName table entity join semantics
  ⦃⇓? _ b => ⌜b.graph.Lowered⌝⦄
  := by
  mvcgen [pushItem] with
  | vc1 _ hb _ => exact hb.1.addItem q _ hb.2

theorem checkAliasFree_lowered (q : QueryId) (aliasName : String) :
  ⦃fun b => ⌜b.graph.Lowered⌝⦄ checkAliasFree q aliasName ⦃⇓? _ b => ⌜b.graph.Lowered⌝⦄
  := by
  mvcgen [checkAliasFree]

theorem resolveEntity_lowered (name : String) :
  ⦃fun b => ⌜b.graph.Lowered⌝⦄ resolveEntity name ⦃⇓? _ b => ⌜b.graph.Lowered⌝⦄
  := by
  mvcgen [resolveEntity]

theorem itemEntity_lowered (f : FromId) (field : String) :
  ⦃fun b => ⌜b.graph.Lowered⌝⦄ itemEntity f field ⦃⇓? _ b => ⌜b.graph.Lowered⌝⦄
  := by
  mvcgen [itemEntity]

theorem fieldOf_lowered (e : Entity) (field : String) :
  ⦃fun b => ⌜b.graph.Lowered⌝⦄ fieldOf e field ⦃⇓? _ b => ⌜b.graph.Lowered⌝⦄
  := by
  mvcgen [fieldOf]

theorem generateAlias_lowered :
  ⦃fun b => ⌜b.graph.Lowered⌝⦄ generateAlias ⦃⇓? _ b => ⌜b.graph.Lowered⌝⦄
  := by
  mvcgen [generateAlias]

attribute [local spec] pushItem_lowered checkAliasFree_lowered resolveEntity_lowered
  itemEntity_lowered fieldOf_lowered generateAlias_lowered

/-- A root has no join; a discriminator filters its block. -/
theorem declareRoot_lowered (q : QueryId) (entity : Entity) (aliasName : String) (bulk : Bool) :
  ⦃fun b => ⌜b.graph.Lowered⌝⦄ declareRoot q entity aliasName bulk ⦃⇓? _ b => ⌜b.graph.Lowered⌝⦄
  := by
  mvcgen [declareRoot, checkAliasFree_lowered, pushItem_lowered] with
  | vc2 _ _ _ _ hg => exact ⟨hg, fun _ _ h => by cases h⟩
  | vc3 =>
    rename_i hg t₁ _ _ hx t
    simp only [t, t₁]
    refine (hg.keepJoins _ _ ?_).addFilter q (lowered_discriminatorFilter hx).1
    intro i
    rfl
  | vc4 =>
    rename_i hg t _ _
    simp only [t]
    exact hg.keepJoins _ _ fun _ => rfl
  | vc5 =>
    rename_i hx _ hg t
    simp only [t]
    exact hg.addFilter q (lowered_discriminatorFilter hx).1

/-- A joined item's filter is the discriminator of its entity. -/
theorem addJoined_lowered (q : QueryId) (aliasName : String) (entity : Option Entity)
    (table : Table) (parent : FromId) (pairs : List (String × String)) (kind : JoinKind)
    (semantics : JoinSemantics) :
  ⦃fun b => ⌜b.graph.Lowered⌝⦄
  addJoined q aliasName entity table parent pairs kind semantics
  ⦃⇓? _ b => ⌜b.graph.Lowered⌝⦄
  := by
  mvcgen [addJoined, pushItem_lowered] with
  | vc1 _ hg _ _ =>
    refine ⟨hg, ?_⟩
    rintro j x ⟨⟩ hx
    obtain ⟨e, -, he⟩ := Option.bind_eq_some_iff.mp hx
    exact lowered_discriminatorFilter he

attribute [local spec] declareRoot_lowered addJoined_lowered

theorem joinToOne_lowered (q : QueryId) (parent : FromId) (entity : Entity)
    (field target : String) (columns : List String) (semantics : JoinSemantics)
    (aliasName : Option String) :
  ⦃fun b => ⌜b.graph.Lowered⌝⦄
  joinToOne q parent entity field target columns semantics aliasName
  ⦃⇓? _ b => ⌜b.graph.Lowered⌝⦄
  := by
  cases aliasName <;>
    mvcgen [joinToOne, resolveEntity_lowered, generateAlias_lowered, addJoined_lowered]
  all_goals grind

/-- A collection records its table among the correlated ones, which lowering does not read. -/
theorem collection_lowered (parent : FromId) (entity : Entity) (field : String)
    (kind : FieldKind) :
  ⦃fun b => ⌜b.graph.Lowered⌝⦄ collection parent entity field kind ⦃⇓? _ b => ⌜b.graph.Lowered⌝⦄
  := by
  mvcgen [collection, resolveEntity_lowered, generateAlias_lowered]
  all_goals grind [Graph.Lowered.withTables]

attribute [local spec] joinToOne_lowered collection_lowered

theorem navigate_lowered (q : QueryId) (parent : FromId) (field : String)
    (semantics : JoinSemantics) :
  ⦃fun b => ⌜b.graph.Lowered⌝⦄ navigate q parent field semantics ⦃⇓? _ b => ⌜b.graph.Lowered⌝⦄
  := by
  mvcgen [navigate, itemEntity_lowered, fieldOf_lowered, joinToOne_lowered, collection_lowered]

theorem declarePath_lowered (q : QueryId) (parent : FromId) (field aliasName : String)
    (semantics : JoinSemantics) :
  ⦃fun b => ⌜b.graph.Lowered⌝⦄
  declarePath q parent field aliasName semantics
  ⦃⇓? _ b => ⌜b.graph.Lowered⌝⦄
  := by
  mvcgen [declarePath, checkAliasFree_lowered, itemEntity_lowered, fieldOf_lowered,
    joinToOne_lowered, resolveEntity_lowered, addJoined_lowered, generateAlias_lowered]

theorem markFetch_lowered (f : FromId) :
  ⦃fun b => ⌜b.graph.Lowered⌝⦄ markFetch f ⦃⇓? _ b => ⌜b.graph.Lowered⌝⦄
  := by
  mvcgen [markFetch] with
  | vc1 _ hg t =>
    simp only [t]
    exact hg.keepJoins _ _ fun _ => rfl

theorem argument_lowered (source : ArgSource) :
  ⦃fun b => ⌜b.graph.Lowered⌝⦄ argument source ⦃⇓? _ b => ⌜b.graph.Lowered⌝⦄
  := by
  mvcgen [argument]
  all_goals grind [Graph.Lowered.withArguments]

end Binding

end EntityQuery
