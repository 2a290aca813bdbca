import Mathlib
import EntityQuery.Proofs.Query.Writable
import EntityQuery.Query.Binding

/-!
# Binding keeps the graph sound

Every step of binding leaves a sound graph sound and never takes a parameter away. The steps
are stated as Hoare triples of `Std.Do` over the `Binding` state and proved by `mvcgen`. A
triple's logical variable `b₀` is the binder a step starts from, so a postcondition
`b₀.graph.arguments.size ≤ b.graph.arguments.size` says that the parameters only grow.

The graph changes that binding makes are few: a new block, a new item joined with a
discriminator filter, a filter added to a block, an item renamed or marked as fetched, a
parameter added, a table recorded. Each keeps `Graph.Sound` by one lemma, and each triple
below cites the lemma for the change it makes.

`Except.throw_spec` restates the library's rule for `throw` in `Except` with its universes
fixed, which `mvcgen` then applies to the failures of every step. `Triple.run_eq_ok` reads a
triple back as a fact about one run.
-/

open Std.Do

set_option mvcgen.warning false

namespace EntityQuery

/-- A failure satisfies every partial postcondition. -/
@[spec high]
theorem Except.throw_spec {ε α : Type} {e : ε} {Q : PostCond α (.except ε .pure)} :
  @Triple (Except ε) (.except ε .pure) _ α (MonadExceptOf.throw e) (spred(Q.2.1 e)) Q
  := by
  simp [Triple.iff]

/-- A run that succeeds from a state meeting the precondition ends in the postcondition. -/
theorem Triple.run_eq_ok {σ ε α : Type} {m : StateT σ (Except ε) α} {P : σ → Prop}
    {Q : α → σ → Prop} (h : ⦃fun s => ⌜P s⌝⦄ m ⦃⇓? a s => ⌜Q a s⌝⦄) {s s' : σ} {a : α}
    (hs : P s) (hrun : m.run s = .ok (a, s')) :
  Q a s'
  := by
  have hwp : (wp⟦m.run s⟧ (PostCond.mayThrow fun p => ⌜Q p.1 p.2⌝)).down :=
    (Triple.iff.mp h) s hs
  have hpure : m.run s = pure (a, s') := hrun
  rw [hpure, WP.pure] at hwp
  exact hwp

/-- A discriminator filter compares a column with a quoted string, so it is writable. -/
theorem writable_discriminatorFilter {f : FromId} {e : Entity} {x : Expr} (n : Nat)
    (h : discriminatorFilter f e = some x) :
  x.Writable n
  := by
  simp only [discriminatorFilter, Option.map_eq_some_iff] at h
  obtain ⟨d, -, rfl⟩ := h
  simp [Expr.Writable, Expr.col]

namespace Graph.Sound

variable {g : Graph}

/-- A new item at the end of the FROM list of `q`, whose join filter is writable. -/
theorem addItem (hg : g.Sound) (q : QueryId) (i : FromItem)
    (hi : ∀ j x, i.join = some j → j.extra = some x → x.Writable g.arguments.size) :
  (({ g with items := g.items.push i } : Graph).modifyBlock q
    fun blk => { blk with fromList := blk.fromList ++ [⟨g.items.size⟩] }).Sound
  := (hg.pushItem i hi).modifyBlock q _ fun e he => (hg.pushItem i hi).blocks q e he

/-- A writable filter added to the block `q`. -/
theorem addFilter (hg : g.Sound) (q : QueryId) {x : Expr} (hx : x.Writable g.arguments.size) :
  (g.modifyBlock q fun blk => { blk with filters := blk.filters ++ [x] }).Sound
  := by
  apply hg.modifyBlock
  intro e he
  simp only [Block.expressions, List.mem_append, List.mem_singleton] at he
  rcases he with (he | rfl) | he
  · exact hg.blocks q e (by simp [Block.expressions, he])
  · exact hx
  · exact hg.blocks q e (by simp [Block.expressions, he])

/-- A change of an item that keeps its join. -/
theorem keepJoins (hg : g.Sound) (f : FromId) (h : FromItem → FromItem)
    (hj : ∀ i, (h i).join = i.join) :
  (g.modifyItem f h).Sound
  := hg.modifyItem f h fun j x hjx hx => hg.joins f j x (by rwa [hj] at hjx) hx

end Graph.Sound

namespace Binding

/-- A new block keeps the graph sound when its body's expressions are writable. -/
theorem newQuery_spec (parent : Option QueryId) (body : Body) (b₀ : Binder) :
  ⦃fun b => ⌜b.graph.Sound ∧ b₀.graph.arguments.size ≤ b.graph.arguments.size ∧
      ∀ e ∈ body.expressions, e.Writable b.graph.arguments.size⌝⦄
  newQuery parent body
  ⦃⇓? _ b => ⌜b.graph.Sound ∧ b₀.graph.arguments.size ≤ b.graph.arguments.size⌝⦄
  := by
  mvcgen [newQuery] with
  | vc1 hb _ => exact ⟨hb.1.pushBlock _ hb.2.2, hb.2.1⟩

/-- A new item keeps the graph sound when its join filter is writable. -/
theorem pushItem_spec (q : QueryId) (aliasName : String) (table : Table)
    (entity : Option Entity) (join : Option Join) (semantics : JoinSemantics) (b₀ : Binder) :
  ⦃fun b => ⌜b.graph.Sound ∧ b₀.graph.arguments.size ≤ b.graph.arguments.size ∧
      ∀ j x, join = some j → j.extra = some x → x.Writable b.graph.arguments.size⌝⦄
  pushItem q aliasName table entity join semantics
  ⦃⇓? _ b => ⌜b.graph.Sound ∧ b₀.graph.arguments.size ≤ b.graph.arguments.size⌝⦄
  := by
  mvcgen [pushItem] with
  | vc1 hb _ => exact ⟨hb.1.addItem q _ hb.2.2, hb.2.1⟩

theorem checkAliasFree_spec (q : QueryId) (aliasName : String) (b₀ : Binder) :
  ⦃fun b => ⌜b.graph.Sound ∧ b₀.graph.arguments.size ≤ b.graph.arguments.size⌝⦄
  checkAliasFree q aliasName
  ⦃⇓? _ b => ⌜b.graph.Sound ∧ b₀.graph.arguments.size ≤ b.graph.arguments.size⌝⦄
  := by
  mvcgen [checkAliasFree]

theorem resolveEntity_spec (name : String) (b₀ : Binder) :
  ⦃fun b => ⌜b.graph.Sound ∧ b₀.graph.arguments.size ≤ b.graph.arguments.size⌝⦄
  resolveEntity name
  ⦃⇓? _ b => ⌜b.graph.Sound ∧ b₀.graph.arguments.size ≤ b.graph.arguments.size⌝⦄
  := by
  mvcgen [resolveEntity]

theorem itemEntity_spec (f : FromId) (field : String) (b₀ : Binder) :
  ⦃fun b => ⌜b.graph.Sound ∧ b₀.graph.arguments.size ≤ b.graph.arguments.size⌝⦄
  itemEntity f field
  ⦃⇓? _ b => ⌜b.graph.Sound ∧ b₀.graph.arguments.size ≤ b.graph.arguments.size⌝⦄
  := by
  mvcgen [itemEntity]

theorem fieldOf_spec (e : Entity) (field : String) (b₀ : Binder) :
  ⦃fun b => ⌜b.graph.Sound ∧ b₀.graph.arguments.size ≤ b.graph.arguments.size⌝⦄
  fieldOf e field
  ⦃⇓? _ b => ⌜b.graph.Sound ∧ b₀.graph.arguments.size ≤ b.graph.arguments.size⌝⦄
  := by
  mvcgen [fieldOf]

theorem generateAlias_spec (b₀ : Binder) :
  ⦃fun b => ⌜b.graph.Sound ∧ b₀.graph.arguments.size ≤ b.graph.arguments.size⌝⦄
  generateAlias
  ⦃⇓? _ b => ⌜b.graph.Sound ∧ b₀.graph.arguments.size ≤ b.graph.arguments.size⌝⦄
  := by
  mvcgen [generateAlias]

/-- Declaring a root adds an item with no join; a bulk target is renamed to its table, and
a discriminator filters the block. -/
theorem declareRoot_spec (q : QueryId) (entity : Entity) (aliasName : String) (bulk : Bool)
    (b₀ : Binder) :
  ⦃fun b => ⌜b.graph.Sound ∧ b₀.graph.arguments.size ≤ b.graph.arguments.size⌝⦄
  declareRoot q entity aliasName bulk
  ⦃⇓? _ b => ⌜b.graph.Sound ∧ b₀.graph.arguments.size ≤ b.graph.arguments.size⌝⦄
  := by
  mvcgen [declareRoot, checkAliasFree_spec, pushItem_spec] with
  | vc5 hb _ _ _ hx _ =>
    refine ⟨(hb.1.keepJoins _ _ fun _ => ?_).addFilter q (writable_discriminatorFilter _ hx), ?_⟩
    · rfl
    · simp +zetaDelta only [Graph.arguments_modifyBlock, Graph.arguments_modifyItem]
      omega
  | vc6 hb _ _ _ =>
    refine ⟨hb.1.keepJoins _ _ fun _ => ?_, ?_⟩
    · rfl
    · simp +zetaDelta only [Graph.arguments_modifyItem]
      omega
  | vc7 hx _ hb _ =>
    refine ⟨hb.1.addFilter q (writable_discriminatorFilter _ hx), ?_⟩
    simp +zetaDelta only [Graph.arguments_modifyBlock]
    omega
  all_goals grind

/-- A joined item's filter is the discriminator of its entity. -/
theorem addJoined_spec (q : QueryId) (aliasName : String) (entity : Option Entity)
    (table : Table) (parent : FromId) (pairs : List (String × String)) (kind : JoinKind)
    (semantics : JoinSemantics) (b₀ : Binder) :
  ⦃fun b => ⌜b.graph.Sound ∧ b₀.graph.arguments.size ≤ b.graph.arguments.size⌝⦄
  addJoined q aliasName entity table parent pairs kind semantics
  ⦃⇓? _ b => ⌜b.graph.Sound ∧ b₀.graph.arguments.size ≤ b.graph.arguments.size⌝⦄
  := by
  mvcgen [addJoined, pushItem_spec] with
  | vc1 hb _ _ =>
    refine ⟨hb.1, by omega, ?_⟩
    rintro j x ⟨⟩ hx
    obtain ⟨e, -, he⟩ := Option.bind_eq_some_iff.mp hx
    exact writable_discriminatorFilter _ he

/-- Joining a to-one field keeps a binder sound and its parameters. The declared alias is matched on
twice, so the proof splits on it before `mvcgen`. -/
theorem joinToOne_spec (q : QueryId) (parent : FromId) (entity : Entity)
    (field target : String) (columns : List String) (semantics : JoinSemantics)
    (aliasName : Option String) (b₀ : Binder) :
  ⦃fun b => ⌜b.graph.Sound ∧ b₀.graph.arguments.size ≤ b.graph.arguments.size⌝⦄
  joinToOne q parent entity field target columns semantics aliasName
  ⦃⇓? _ b => ⌜b.graph.Sound ∧ b₀.graph.arguments.size ≤ b.graph.arguments.size⌝⦄
  := by
  cases aliasName <;>
    mvcgen [joinToOne, resolveEntity_spec, generateAlias_spec, addJoined_spec]
  all_goals grind

/-- A collection records its table among the correlated ones, which soundness does not
read. -/
theorem collection_spec (parent : FromId) (entity : Entity) (field : String) (kind : FieldKind)
    (b₀ : Binder) :
  ⦃fun b => ⌜b.graph.Sound ∧ b₀.graph.arguments.size ≤ b.graph.arguments.size⌝⦄
  collection parent entity field kind
  ⦃⇓? _ b => ⌜b.graph.Sound ∧ b₀.graph.arguments.size ≤ b.graph.arguments.size⌝⦄
  := by
  mvcgen [collection, resolveEntity_spec, generateAlias_spec] <;> grind [Graph.Sound.withTables]

theorem navigate_spec (q : QueryId) (parent : FromId) (field : String)
    (semantics : JoinSemantics) (b₀ : Binder) :
  ⦃fun b => ⌜b.graph.Sound ∧ b₀.graph.arguments.size ≤ b.graph.arguments.size⌝⦄
  navigate q parent field semantics
  ⦃⇓? _ b => ⌜b.graph.Sound ∧ b₀.graph.arguments.size ≤ b.graph.arguments.size⌝⦄
  := by
  mvcgen [navigate, itemEntity_spec, fieldOf_spec, joinToOne_spec, collection_spec]
  all_goals grind

theorem declarePath_spec (q : QueryId) (parent : FromId) (field aliasName : String)
    (semantics : JoinSemantics) (b₀ : Binder) :
  ⦃fun b => ⌜b.graph.Sound ∧ b₀.graph.arguments.size ≤ b.graph.arguments.size⌝⦄
  declarePath q parent field aliasName semantics
  ⦃⇓? _ b => ⌜b.graph.Sound ∧ b₀.graph.arguments.size ≤ b.graph.arguments.size⌝⦄
  := by
  mvcgen [declarePath, checkAliasFree_spec, itemEntity_spec, fieldOf_spec, joinToOne_spec,
    resolveEntity_spec, addJoined_spec, generateAlias_spec]
  all_goals grind

theorem markFetch_spec (f : FromId) (b₀ : Binder) :
  ⦃fun b => ⌜b.graph.Sound ∧ b₀.graph.arguments.size ≤ b.graph.arguments.size⌝⦄
  markFetch f
  ⦃⇓? _ b => ⌜b.graph.Sound ∧ b₀.graph.arguments.size ≤ b.graph.arguments.size⌝⦄
  := by
  mvcgen [markFetch] with
  | vc1 hb t =>
    simp only [t, Graph.arguments_modifyItem]
    exact ⟨hb.1.keepJoins _ _ fun _ => rfl, hb.2⟩

/-- The slot of a parameter is one of the graph's: an equal earlier one, or a new one at the
end. -/
theorem argument_spec (source : ArgSource) (b₀ : Binder) :
  ⦃fun b => ⌜b.graph.Sound ∧ b₀.graph.arguments.size ≤ b.graph.arguments.size⌝⦄
  argument source
  ⦃⇓? i b => ⌜b.graph.Sound ∧ b₀.graph.arguments.size ≤ b.graph.arguments.size ∧
      i < b.graph.arguments.size⌝⦄
  := by
  mvcgen [argument] with
  | vc2 hb _ _ _ hi => exact ⟨hb.1, hb.2, (Array.findIdx?_eq_some_iff_findIdx_eq.mp hi).1⟩
  | vc3 hb _ _ _ t =>
    simp only [t]
    exact ⟨hb.1.pushArgument _ rfl, by simp; omega, by simp⟩

end Binding

end EntityQuery
