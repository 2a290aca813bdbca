import EntityQuery.Query.Graph

/-!
# Expressions within a graph

An expression names items, blocks and parameters of its graph by index. `Expr.Within x e` says
that each index `e` holds names something a graph of extent `x` has: each item below
`x.items`, each block below `x.blocks`, each parameter below `x.params`. The indices an
expression holds are those of its columns, entities, collection owners, join ends, sub-queries
and parameters.

A graph only grows while a query is read, so an expression within the graph stays within it
(`Expr.Within.mono`). The rewrites of the optimizer keep expressions within the graph: taking
conjunctions apart or together and writing joins as predicates move the indices an expression
holds without adding any, and rewriting columns keeps them within the graph when the new
columns are.
-/

namespace EntityQuery

/-- How many items, blocks and parameters a graph has: an index below these names one it has. -/
structure Extent where
  items : Nat
  blocks : Nat
  params : Nat

namespace Extent

/-- One extent is within another when each of its counts is at most the other's. -/
instance : LE Extent := ⟨fun a b => a.items ≤ b.items ∧ a.blocks ≤ b.blocks ∧ a.params ≤ b.params⟩

@[grind =]
theorem le_iff {a b : Extent} :
  a ≤ b ↔ a.items ≤ b.items ∧ a.blocks ≤ b.blocks ∧ a.params ≤ b.params
  := Iff.rfl

theorem le_refl (a : Extent) : a ≤ a := ⟨Nat.le_refl _, Nat.le_refl _, Nat.le_refl _⟩

theorem le_trans {a b c : Extent} (hab : a ≤ b) (hbc : b ≤ c) : a ≤ c :=
  ⟨Nat.le_trans hab.1 hbc.1, Nat.le_trans hab.2.1 hbc.2.1, Nat.le_trans hab.2.2 hbc.2.2⟩

end Extent

/-- The extent of a graph: its items, blocks and parameters. -/
def Graph.extent (g : Graph) : Extent := ⟨g.items.size, g.blocks.size, g.arguments.size⟩

@[simp, grind =]
theorem Graph.extent_items (g : Graph) : g.extent.items = g.items.size := rfl

@[simp, grind =]
theorem Graph.extent_blocks (g : Graph) : g.extent.blocks = g.blocks.size := rfl

@[simp, grind =]
theorem Graph.extent_params (g : Graph) : g.extent.params = g.arguments.size := rfl

/-- The column's item is one of the first `x.items`. -/
def ColumnRef.Within (x : Extent) (c : ColumnRef) : Prop := c.source.idx < x.items

/-- The owner of the collection is one of the first `x.items`. -/
def CollectionRef.Within (x : Extent) (c : CollectionRef) : Prop :=
  ∀ k ∈ c.ownerKeys, k.Within x

/-- Both ends of the link are among the first `x.items`. -/
def Link.Within (x : Extent) (l : Link) : Prop := l.parent.idx < x.items ∧ l.target.idx < x.items

/-! ### Growth and rewriting of the parts of expressions -/

theorem ColumnRef.Within.mono {x y : Extent} (hxy : x ≤ y) {c : ColumnRef} (h : c.Within x) :
  c.Within y
  := Nat.lt_of_lt_of_le h hxy.1

theorem CollectionRef.Within.mono {x y : Extent} (hxy : x ≤ y) {c : CollectionRef}
    (h : c.Within x) :
  c.Within y
  := fun k hk => ColumnRef.Within.mono hxy (h k hk)

theorem Link.Within.mono {x y : Extent} (hxy : x ≤ y) {l : Link} (h : l.Within x) : l.Within y :=
  ⟨Nat.lt_of_lt_of_le h.1 hxy.1, Nat.lt_of_lt_of_le h.2 hxy.1⟩

theorem CollectionRef.Within.mapOwners {x : Extent} {h : ColumnRef → ColumnRef}
    (hh : ∀ c, c.Within x → (h c).Within x)
    {c : CollectionRef} (hc : c.Within x) :
  ({ c with ownerKeys := c.ownerKeys.map h } : CollectionRef).Within x
  := by
  intro k hk
  obtain ⟨k', hk', rfl⟩ := List.mem_map.mp hk
  exact hh k' (hc k' hk')

namespace Expr

/-! ### The indices an expression holds -/

mutual

/-- Every item, block and parameter the expression names is within `x`. -/
def Within (x : Extent) : Expr → Prop
  | .argument i => i < x.params
  | .column c => c.Within x
  | .entityPath f => f.idx < x.items
  | .loadEntity f => f.idx < x.items
  | .collectionPath c => c.Within x
  | .isEmpty c _ => c.Within x
  | .size c => c.Within x
  | .memberOf item c _ => WithinAll x item ∧ c.Within x
  | .subSelect q => q.idx < x.blocks
  | .exists q => q.idx < x.blocks
  | .quantified _ q => q.idx < x.blocks
  | .join l (some e) => l.Within x ∧ e.Within x
  | .join l none => l.Within x
  | .unary _ e => e.Within x
  | .binary _ l r => l.Within x ∧ r.Within x
  | .concat l r => l.Within x ∧ r.Within x
  | .between e lo hi _ => e.Within x ∧ lo.Within x ∧ hi.Within x
  | .like e p _ _ => e.Within x ∧ p.Within x
  | .inList e vs _ => e.Within x ∧ WithinAll x vs
  | .isNull e _ => e.Within x
  | .call _ args _ => WithinAll x args
  | .trim _ (some c) s => c.Within x ∧ s.Within x
  | .trim _ none s => s.Within x
  | .position n h => n.Within x ∧ h.Within x
  | .caseWhen c t o => c.Within x ∧ t.Within x ∧ o.Within x
  | .conj parts => WithinAll x parts
  | .disj parts => WithinAll x parts
  | .literal _ | .null | .dateTime _ => True

/-- Each expression of the list is within `x`. -/
def WithinAll (x : Extent) : List Expr → Prop
  | [] => True
  | e :: es => e.Within x ∧ WithinAll x es

end

theorem withinAll_nil {x : Extent} : WithinAll x [] ↔ True := Iff.rfl

theorem withinAll_cons {x : Extent} {e : Expr} {es : List Expr} :
  WithinAll x (e :: es) ↔ e.Within x ∧ WithinAll x es
  := Iff.rfl

theorem within_conj {x : Extent} {es : List Expr} : (Expr.conj es).Within x ↔ WithinAll x es :=
  Iff.rfl

theorem within_disj {x : Extent} {es : List Expr} : (Expr.disj es).Within x ↔ WithinAll x es :=
  Iff.rfl

theorem withinAll_iff {x : Extent} (es : List Expr) : WithinAll x es ↔ ∀ e ∈ es, e.Within x := by
  induction es with
  | nil => simp [withinAll_nil]
  | cons e es ih => simp [withinAll_cons, ih]

theorem withinAll_append {x : Extent} (xs ys : List Expr) :
  WithinAll x (xs ++ ys) ↔ WithinAll x xs ∧ WithinAll x ys
  := by
  simp [withinAll_iff, or_imp, forall_and]

section Mono

variable {x y : Extent}

mutual

/-- What is within a graph stays within it as the graph grows. -/
theorem Within.mono (hxy : x ≤ y) : ∀ e : Expr, e.Within x → e.Within y
  | .argument _, h => Nat.lt_of_lt_of_le h hxy.2.2
  | .column _, h => ColumnRef.Within.mono hxy h
  | .entityPath _, h | .loadEntity _, h => Nat.lt_of_lt_of_le h hxy.1
  | .collectionPath _, h | .isEmpty _ _, h | .size _, h => CollectionRef.Within.mono hxy h
  | .memberOf item _ _, ⟨hi, hc⟩ =>
    ⟨WithinAll.mono hxy item hi, CollectionRef.Within.mono hxy hc⟩
  | .subSelect _, h | .exists _, h | .quantified _ _, h => Nat.lt_of_lt_of_le h hxy.2.1
  | .join _ (some e), ⟨hl, he⟩ => ⟨Link.Within.mono hxy hl, Within.mono hxy e he⟩
  | .join _ none, h => Link.Within.mono hxy h
  | .unary _ e, h | .isNull e _, h | .trim _ none e, h => Within.mono hxy e h
  | .binary _ l r, ⟨hl, hr⟩ | .concat l r, ⟨hl, hr⟩ | .position l r, ⟨hl, hr⟩
  | .trim _ (some l) r, ⟨hl, hr⟩ | .like l r _ _, ⟨hl, hr⟩ =>
    ⟨Within.mono hxy l hl, Within.mono hxy r hr⟩
  | .between a b c _, ⟨ha, hb, hc⟩ | .caseWhen a b c, ⟨ha, hb, hc⟩ =>
    ⟨Within.mono hxy a ha, Within.mono hxy b hb, Within.mono hxy c hc⟩
  | .inList e vs _, ⟨he, hvs⟩ => ⟨Within.mono hxy e he, WithinAll.mono hxy vs hvs⟩
  | .call _ es _, h | .conj es, h | .disj es, h => WithinAll.mono hxy es h
  | .literal _, _ | .null, _ | .dateTime _, _ => trivial

theorem WithinAll.mono (hxy : x ≤ y) : ∀ es : List Expr, WithinAll x es → WithinAll y es
  | [], _ => trivial
  | e :: es, ⟨he, hes⟩ => ⟨Within.mono hxy e he, WithinAll.mono hxy es hes⟩

end

/-- `Within.mono` with the order of extents taken component by component: the form in which
`grind` chains the growth of a graph along a run of steps by arithmetic alone. -/
theorem Within.grow {e : Expr} (h : e.Within x) (hi : x.items ≤ y.items)
    (hb : x.blocks ≤ y.blocks) (hp : x.params ≤ y.params) :
  e.Within y
  := Within.mono ⟨hi, hb, hp⟩ e h

end Mono

/-! ### Rewriting columns -/

section Columns

variable {x : Extent} {h : ColumnRef → ColumnRef}

mutual

/-- Rewriting columns into columns within the graph keeps an expression within it. -/
theorem Within.mapColumns (hh : ∀ c, c.Within x → (h c).Within x) :
    ∀ e : Expr, e.Within x → (e.mapColumns h).Within x
  | .column c, hc => hh c hc
  | .collectionPath _, hc | .isEmpty _ _, hc | .size _, hc => CollectionRef.Within.mapOwners hh hc
  | .memberOf item _ _, ⟨hi, hc⟩ =>
    ⟨WithinAll.mapColumnsAll hh item hi, CollectionRef.Within.mapOwners hh hc⟩
  | .join _ (some e), ⟨hl, he⟩ => ⟨hl, Within.mapColumns hh e he⟩
  | .join _ none, hl => hl
  | .unary _ e, he | .isNull e _, he | .trim _ none e, he => Within.mapColumns hh e he
  | .binary _ l r, ⟨hl, hr⟩ | .concat l r, ⟨hl, hr⟩ | .position l r, ⟨hl, hr⟩
  | .trim _ (some l) r, ⟨hl, hr⟩ | .like l r _ _, ⟨hl, hr⟩ =>
    ⟨Within.mapColumns hh l hl, Within.mapColumns hh r hr⟩
  | .between a b c _, ⟨ha, hb, hc⟩ | .caseWhen a b c, ⟨ha, hb, hc⟩ =>
    ⟨Within.mapColumns hh a ha, Within.mapColumns hh b hb, Within.mapColumns hh c hc⟩
  | .inList e vs _, ⟨he, hvs⟩ => ⟨Within.mapColumns hh e he, WithinAll.mapColumnsAll hh vs hvs⟩
  | .call _ es _, hes | .conj es, hes | .disj es, hes => WithinAll.mapColumnsAll hh es hes
  | .argument _, he | .entityPath _, he | .loadEntity _, he | .subSelect _, he | .exists _, he
  | .quantified _ _, he | .literal _, he | .null, he | .dateTime _, he => he

theorem WithinAll.mapColumnsAll (hh : ∀ c, c.Within x → (h c).Within x) :
    ∀ es : List Expr, WithinAll x es → WithinAll x (mapColumnsAll h es)
  | [], _ => trivial
  | e :: es, ⟨he, hes⟩ => ⟨Within.mapColumns hh e he, WithinAll.mapColumnsAll hh es hes⟩

end

end Columns

/-! ### Conjunctions, disjunctions and joins -/

theorem withinAll_flattenConj {x : Extent} (ps : List Expr) :
  WithinAll x (flattenConj ps) ↔ WithinAll x ps
  := by
  induction ps with
  | nil => exact Iff.rfl
  | cons e es ih =>
    cases e <;> simp [flattenConj, withinAll_cons, withinAll_append, ih, within_conj]

theorem withinAll_flattenDisj {x : Extent} (ps : List Expr) :
  WithinAll x (flattenDisj ps) ↔ WithinAll x ps
  := by
  induction ps with
  | nil => exact Iff.rfl
  | cons e es ih =>
    cases e <;> simp [flattenDisj, withinAll_cons, withinAll_append, ih, within_disj]

@[simp]
theorem within_conjunction {x : Extent} (ps : List Expr) :
  (conjunction ps).Within x ↔ WithinAll x ps
  := by
  rw [conjunction, ← withinAll_flattenConj]
  split <;> simp_all [withinAll_cons, withinAll_nil, within_conj]

@[simp]
theorem within_disjunction {x : Extent} (ps : List Expr) :
  (disjunction ps).Within x ↔ WithinAll x ps
  := by
  rw [disjunction, ← withinAll_flattenDisj]
  split <;> simp_all [withinAll_cons, withinAll_nil, within_disj]

/-- A join holds its link and its filter. -/
theorem within_join {x : Extent} {l : Link} {extra : Option Expr} :
  (Expr.join l extra).Within x ↔ l.Within x ∧ ∀ e ∈ extra, e.Within x
  := by
  cases extra with
  | none =>
    show l.Within x ↔ _
    simp
  | some e =>
    show l.Within x ∧ e.Within x ↔ _
    simp

/-- The conjunction of parts within the graph, if there are any. -/
theorem within_andAll {x : Extent} {ps : List Expr} (hps : ∀ p ∈ ps, p.Within x) :
  ∀ e ∈ andAll ps, e.Within x
  := by
  intro e he
  simp only [andAll] at he
  split at he
  · cases he
  · cases he
    exact (within_conjunction ps).mpr ((withinAll_iff ps).mpr hps)

mutual

/-- The parts of a conjunction within the graph are within it. -/
theorem Within.conjuncts {x : Extent} : ∀ {e : Expr}, e.Within x → ∀ c ∈ e.conjuncts, c.Within x
  | .conj parts, h => WithinAll.conjunctsAll h
  | .literal _, h | .null, h | .argument _, h | .column _, h | .entityPath _, h
  | .loadEntity _, h | .collectionPath _, h | .unary _ _, h | .binary _ _ _, h
  | .concat _ _, h | .between _ _ _ _, h | .like _ _ _ _, h | .inList _ _ _, h
  | .isNull _ _, h | .isEmpty _ _, h | .memberOf _ _ _, h | .size _, h | .call _ _ _, h
  | .trim _ _ _, h | .position _ _, h | .caseWhen _ _ _, h | .dateTime _, h | .disj _, h
  | .subSelect _, h | .exists _, h | .quantified _ _, h | .join _ _, h => by
    intro c hc
    simp only [Expr.conjuncts, List.mem_singleton] at hc
    exact hc ▸ h

/-- The parts of a list of conjunctions within the graph are within it. -/
theorem WithinAll.conjunctsAll {x : Extent} :
    ∀ {es : List Expr}, WithinAll x es → ∀ c ∈ Expr.conjunctsAll es, c.Within x
  | [], _ => by simp [Expr.conjunctsAll]
  | e :: es, ⟨he, hes⟩ => by
    intro c hc
    rcases List.mem_append.mp hc with hc | hc
    · exact Within.conjuncts he c hc
    · exact WithinAll.conjunctsAll hes c hc

end

/-- A link's predicate holds the link's two ends and its filter. -/
theorem within_linkPredicate {x : Extent} {l : Link} {extra : Option Expr} (hl : l.Within x)
    (hx : ∀ e ∈ extra, e.Within x) :
  (l.predicate extra).Within x
  := by
  rw [Link.predicate, within_conjunction, withinAll_append, withinAll_iff, withinAll_iff]
  refine ⟨?_, fun e he => hx e (Option.mem_toList.mp he)⟩
  simp only [List.mem_map, Prod.exists]
  rintro - ⟨p, t, -, rfl⟩
  exact ⟨hl.1, hl.2⟩

mutual

/-- Writing joins as their predicates keeps an expression within the graph. -/
theorem Within.replaceJoins {x : Extent} : ∀ e : Expr, e.Within x → e.replaceJoins.Within x
  | .join _ (some e), ⟨hl, he⟩ => within_linkPredicate hl fun _ h => Option.mem_some_iff.mp h ▸
      Within.replaceJoins e he
  | .join _ none, hl => within_linkPredicate hl fun _ h => nomatch h
  | .unary _ e, he | .isNull e _, he | .trim _ none e, he => Within.replaceJoins e he
  | .binary _ l r, ⟨hl, hr⟩ | .concat l r, ⟨hl, hr⟩ | .position l r, ⟨hl, hr⟩
  | .trim _ (some l) r, ⟨hl, hr⟩ | .like l r _ _, ⟨hl, hr⟩ =>
    ⟨Within.replaceJoins l hl, Within.replaceJoins r hr⟩
  | .between a b c _, ⟨ha, hb, hc⟩ | .caseWhen a b c, ⟨ha, hb, hc⟩ =>
    ⟨Within.replaceJoins a ha, Within.replaceJoins b hb, Within.replaceJoins c hc⟩
  | .inList e vs _, ⟨he, hvs⟩ => ⟨Within.replaceJoins e he, WithinAll.replaceJoinsAll vs hvs⟩
  | .memberOf es _ _, ⟨hes, hc⟩ => ⟨WithinAll.replaceJoinsAll es hes, hc⟩
  | .call _ es _, hes | .conj es, hes | .disj es, hes => WithinAll.replaceJoinsAll es hes
  | .argument _, he | .column _, he | .entityPath _, he | .loadEntity _, he
  | .collectionPath _, he | .isEmpty _ _, he | .size _, he | .subSelect _, he | .exists _, he
  | .quantified _ _, he | .literal _, he | .null, he | .dateTime _, he => he

theorem WithinAll.replaceJoinsAll {x : Extent} :
    ∀ es : List Expr, WithinAll x es → WithinAll x (replaceJoinsAll es)
  | [], _ => trivial
  | e :: es, ⟨he, hes⟩ => ⟨Within.replaceJoins e he, WithinAll.replaceJoinsAll es hes⟩

end

end Expr

end EntityQuery
