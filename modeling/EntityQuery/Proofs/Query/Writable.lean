import EntityQuery.Query.Optimize
import EntityQuery.Proofs.Sql.Text

/-!
# Expressions the writer can copy

The SQL writer copies three kinds of text from an expression as they stand: string literals,
the literal of an `ESCAPE`, and function names. Everything else it writes is a keyword, a
number or a quoted identifier. `Expr.Writable n e` says that the text `e` copies is plain
SQL, read from outside quotes back to outside quotes with no `?` on the way, and that `e`
refers to none but the first `n` parameters. A graph is `Graph.Sound` when every expression it
holds is writable with the parameters it has: the expressions of each block and the filters
of each join.

Rewriting columns, writing joins as their predicates, and taking conjunctions apart or
together keep expressions writable, since they move expressions without changing the text
they copy or the parameters they read.
-/

namespace EntityQuery

open SqlText

namespace Expr

/-! ### Copied text and parameters -/

mutual

/-- The text the expression copies is plain SQL (each string literal, each `ESCAPE` literal
and each function name), and each parameter it refers to is one of the first `n`. -/
def Writable (n : Nat) : Expr → Prop
  | .literal (.string s) => PlainText s
  | .argument i => i < n
  | .unary _ e => e.Writable n
  | .binary _ l r => l.Writable n ∧ r.Writable n
  | .concat l r => l.Writable n ∧ r.Writable n
  | .between e lo hi _ => e.Writable n ∧ lo.Writable n ∧ hi.Writable n
  | .like e p (some s) _ => e.Writable n ∧ p.Writable n ∧ PlainText s
  | .like e p none _ => e.Writable n ∧ p.Writable n
  | .inList e vs _ => e.Writable n ∧ WritableAll n vs
  | .isNull e _ => e.Writable n
  | .memberOf item _ _ => WritableAll n item
  | .call name args _ => PlainText name ∧ WritableAll n args
  | .trim _ (some c) s => c.Writable n ∧ s.Writable n
  | .trim _ none s => s.Writable n
  | .position a b => a.Writable n ∧ b.Writable n
  | .caseWhen c t o => c.Writable n ∧ t.Writable n ∧ o.Writable n
  | .conj parts => WritableAll n parts
  | .disj parts => WritableAll n parts
  | .join _ (some x) => x.Writable n
  | _ => True

/-- Each expression of the list is writable. -/
def WritableAll (n : Nat) : List Expr → Prop
  | [] => True
  | e :: es => e.Writable n ∧ WritableAll n es

end

theorem writableAll_iff {n : Nat} (es : List Expr) : WritableAll n es ↔ ∀ e ∈ es, e.Writable n := by
  induction es with
  | nil => simp [WritableAll]
  | cons e es ih => simp [WritableAll, ih]

theorem writableAll_append {n : Nat} (xs ys : List Expr) :
  WritableAll n (xs ++ ys) ↔ WritableAll n xs ∧ WritableAll n ys
  := by
  simp [writableAll_iff, or_imp, forall_and]

mutual

/-- Writability holds of more parameters as soon as it holds of fewer. -/
theorem Writable.mono {n m : Nat} (hnm : n ≤ m) : ∀ e : Expr, e.Writable n → e.Writable m
  | .literal (.string _), h => h
  | .literal (.integer _), _ | .literal (.long _), _ | .literal (.double _), _
  | .literal (.boolean _), _ | .null, _ | .column _, _ | .entityPath _, _ | .loadEntity _, _
  | .collectionPath _, _ | .isEmpty _ _, _ | .size _, _ | .dateTime _, _ | .subSelect _, _
  | .exists _, _ | .quantified _ _, _ | .join _ none, _ => trivial
  | .argument _, h => Nat.lt_of_lt_of_le h hnm
  | .unary _ e, h | .isNull e _, h | .trim _ none e, h | .join _ (some e), h =>
    Writable.mono hnm e h
  | .binary _ l r, ⟨hl, hr⟩ | .concat l r, ⟨hl, hr⟩ | .position l r, ⟨hl, hr⟩
  | .trim _ (some l) r, ⟨hl, hr⟩ | .like l r none _, ⟨hl, hr⟩ =>
    ⟨Writable.mono hnm l hl, Writable.mono hnm r hr⟩
  | .between a b c _, ⟨ha, hb, hc⟩ | .caseWhen a b c, ⟨ha, hb, hc⟩ =>
    ⟨Writable.mono hnm a ha, Writable.mono hnm b hb, Writable.mono hnm c hc⟩
  | .like a b (some _) _, ⟨ha, hb, hs⟩ => ⟨Writable.mono hnm a ha, Writable.mono hnm b hb, hs⟩
  | .inList e vs _, ⟨he, hvs⟩ => ⟨Writable.mono hnm e he, WritableAll.mono hnm vs hvs⟩
  | .memberOf es _ _, h | .conj es, h | .disj es, h => WritableAll.mono hnm es h
  | .call _ args _, ⟨hname, hargs⟩ => ⟨hname, WritableAll.mono hnm args hargs⟩

theorem WritableAll.mono {n m : Nat} (hnm : n ≤ m) :
    ∀ es : List Expr, WritableAll n es → WritableAll m es
  | [], _ => trivial
  | e :: es, ⟨he, hes⟩ => ⟨Writable.mono hnm e he, WritableAll.mono hnm es hes⟩

end

/-! ### Rewriting columns -/

mutual

@[simp]
theorem writable_mapColumns {n : Nat} (g : ColumnRef → ColumnRef) :
    ∀ e : Expr, (e.mapColumns g).Writable n ↔ e.Writable n
  | .literal _ | .null | .argument _ | .column _ | .entityPath _ | .loadEntity _
  | .collectionPath _ | .isEmpty _ _ | .size _ | .dateTime _ | .subSelect _ | .exists _
  | .quantified _ _ | .join _ none => Iff.rfl
  | .unary _ e | .isNull e _ | .trim _ none e | .join _ (some e) => by
    simp [mapColumns, Writable, writable_mapColumns g e]
  | .binary _ l r | .concat l r | .position l r | .trim _ (some l) r => by
    simp [mapColumns, Writable, writable_mapColumns g l, writable_mapColumns g r]
  | .between e lo hi _ | .caseWhen e lo hi => by
    simp [mapColumns, Writable, writable_mapColumns g e, writable_mapColumns g lo,
      writable_mapColumns g hi]
  | .like e p (some _) _ | .like e p none _ => by
    simp [mapColumns, Writable, writable_mapColumns g e, writable_mapColumns g p]
  | .inList e vs _ => by
    simp [mapColumns, Writable, writable_mapColumns g e, writableAll_mapColumnsAll g vs]
  | .memberOf es _ _ | .call _ es _ | .conj es | .disj es => by
    simp [mapColumns, Writable, writableAll_mapColumnsAll g es]

@[simp]
theorem writableAll_mapColumnsAll {n : Nat} (g : ColumnRef → ColumnRef) :
    ∀ es : List Expr, WritableAll n (mapColumnsAll g es) ↔ WritableAll n es
  | [] => Iff.rfl
  | e :: es => by
    simp [mapColumnsAll, WritableAll, writable_mapColumns g e, writableAll_mapColumnsAll g es]

end

/-! ### Conjunctions and joins -/

theorem writableAll_flattenConj {n : Nat} (ps : List Expr) :
  WritableAll n (flattenConj ps) ↔ WritableAll n ps
  := by
  induction ps with
  | nil => exact Iff.rfl
  | cons e es ih =>
    cases e <;> simp [flattenConj, WritableAll, writableAll_append, ih, Writable]

theorem writableAll_flattenDisj {n : Nat} (ps : List Expr) :
  WritableAll n (flattenDisj ps) ↔ WritableAll n ps
  := by
  induction ps with
  | nil => exact Iff.rfl
  | cons e es ih =>
    cases e <;> simp [flattenDisj, WritableAll, writableAll_append, ih, Writable]

@[simp]
theorem writable_conjunction {n : Nat} (ps : List Expr) :
  (conjunction ps).Writable n ↔ WritableAll n ps
  := by
  rw [conjunction, ← writableAll_flattenConj]
  split <;> simp_all [WritableAll, Writable]

@[simp]
theorem writable_disjunction {n : Nat} (ps : List Expr) :
  (disjunction ps).Writable n ↔ WritableAll n ps
  := by
  rw [disjunction, ← writableAll_flattenDisj]
  split <;> simp_all [WritableAll, Writable]

mutual

/-- The parts of a writable conjunction are writable. -/
theorem Writable.conjuncts {n : Nat} : ∀ {e : Expr}, e.Writable n → ∀ c ∈ e.conjuncts, c.Writable n
  | .conj parts, h => WritableAll.conjunctsAll h
  | .literal _, h | .null, h | .argument _, h | .column _, h | .entityPath _, h
  | .loadEntity _, h | .collectionPath _, h | .unary _ _, h | .binary _ _ _, h
  | .concat _ _, h | .between _ _ _ _, h | .like _ _ _ _, h | .inList _ _ _, h
  | .isNull _ _, h | .isEmpty _ _, h | .memberOf _ _ _, h | .size _, h | .call _ _ _, h
  | .trim _ _ _, h | .position _ _, h | .caseWhen _ _ _, h | .dateTime _, h | .disj _, h
  | .subSelect _, h | .exists _, h | .quantified _ _, h | .join _ _, h => by
    intro c hc
    simp only [Expr.conjuncts, List.mem_singleton] at hc
    exact hc ▸ h

/-- The parts of a list of writable conjunctions are writable. -/
theorem WritableAll.conjunctsAll {n : Nat} :
    ∀ {es : List Expr}, WritableAll n es → ∀ c ∈ Expr.conjunctsAll es, c.Writable n
  | [], _ => by simp [Expr.conjunctsAll]
  | e :: es, ⟨he, hes⟩ => by
    intro c hc
    rcases List.mem_append.mp hc with hc | hc
    · exact Writable.conjuncts he c hc
    · exact WritableAll.conjunctsAll hes c hc

end

/-- A join's predicate is as writable as its filter: its equalities copy no text. -/
@[simp]
theorem writable_linkPredicate {n : Nat} (l : Link) (extra : Option Expr) :
  (l.predicate extra).Writable n ↔ WritableAll n extra.toList
  := by
  rw [Link.predicate, writable_conjunction, writableAll_append, writableAll_iff (List.map _ _)]
  simp only [List.mem_map, Prod.exists, and_iff_right_iff_imp]
  rintro - e ⟨p, t, -, rfl⟩
  exact ⟨trivial, trivial⟩

mutual

@[simp]
theorem writable_replaceJoins {n : Nat} : ∀ e : Expr, e.replaceJoins.Writable n ↔ e.Writable n
  | .literal _ | .null | .argument _ | .column _ | .entityPath _ | .loadEntity _
  | .collectionPath _ | .isEmpty _ _ | .size _ | .dateTime _ | .subSelect _ | .exists _
  | .quantified _ _ => Iff.rfl
  | .join l none => by simp [replaceJoins, Writable, WritableAll]
  | .join l (some x) => by simp [replaceJoins, Writable, WritableAll, writable_replaceJoins x]
  | .unary _ e | .isNull e _ | .trim _ none e => by
    simp [replaceJoins, Writable, writable_replaceJoins e]
  | .binary _ l r | .concat l r | .position l r | .trim _ (some l) r => by
    simp [replaceJoins, Writable, writable_replaceJoins l, writable_replaceJoins r]
  | .between e lo hi _ | .caseWhen e lo hi => by
    simp [replaceJoins, Writable, writable_replaceJoins e, writable_replaceJoins lo,
      writable_replaceJoins hi]
  | .like e p (some _) _ | .like e p none _ => by
    simp [replaceJoins, Writable, writable_replaceJoins e, writable_replaceJoins p]
  | .inList e vs _ => by
    simp [replaceJoins, Writable, writable_replaceJoins e, writableAll_replaceJoinsAll vs]
  | .memberOf es _ _ | .call _ es _ | .conj es | .disj es => by
    simp [replaceJoins, Writable, writableAll_replaceJoinsAll es]

@[simp]
theorem writableAll_replaceJoinsAll {n : Nat} :
    ∀ es : List Expr, WritableAll n (replaceJoinsAll es) ↔ WritableAll n es
  | [] => Iff.rfl
  | e :: es => by
    simp [replaceJoinsAll, WritableAll, writable_replaceJoins e, writableAll_replaceJoinsAll es]

end

end Expr

/-! ### Sound graphs -/

namespace Graph

/-- A graph ready to be written: every expression it holds is writable with its parameters
(the expressions of each block and the filter of each join), and no parameter is bound to a
marker yet. An index out of range reads a blank block or item, which holds none. -/
structure Sound (g : Graph) : Prop where
  blocks : ∀ q, ∀ e ∈ (g.block q).expressions, e.Writable g.arguments.size
  joins : ∀ f j x, (g.item f).join = some j → j.extra = some x → x.Writable g.arguments.size
  unbound : ∀ a ∈ g.arguments, a.sqlOrdinals = []

theorem block_modifyBlock (g : Graph) (q q' : QueryId) (h : Block → Block) :
  (g.modifyBlock q h).block q' =
    if q'.idx = q.idx ∧ q.idx < g.blocks.size then h (g.block q) else g.block q'
  := by
  simp only [block, modifyBlock, Array.getElem?_modify]
  by_cases hq : q'.idx = q.idx
  · by_cases hlt : q.idx < g.blocks.size <;> simp [hq, hlt]
  · simp [hq, Ne.symm hq]

@[simp]
theorem item_modifyBlock (g : Graph) (q : QueryId) (h : Block → Block) (f : FromId) :
  (g.modifyBlock q h).item f = g.item f
  := rfl

@[simp]
theorem arguments_modifyBlock (g : Graph) (q : QueryId) (h : Block → Block) :
  (g.modifyBlock q h).arguments = g.arguments
  := rfl

theorem item_modifyItem (g : Graph) (f f' : FromId) (h : FromItem → FromItem) :
  (g.modifyItem f h).item f' =
    if f'.idx = f.idx ∧ f.idx < g.items.size then h (g.item f) else g.item f'
  := by
  simp only [item, modifyItem, Array.getElem?_modify]
  by_cases hf : f'.idx = f.idx
  · by_cases hlt : f.idx < g.items.size <;> simp [hf, hlt]
  · simp [hf, Ne.symm hf]

@[simp]
theorem block_modifyItem (g : Graph) (f : FromId) (h : FromItem → FromItem) (q : QueryId) :
  (g.modifyItem f h).block q = g.block q
  := rfl

@[simp]
theorem arguments_modifyItem (g : Graph) (f : FromId) (h : FromItem → FromItem) :
  (g.modifyItem f h).arguments = g.arguments
  := rfl

namespace Sound

variable {g : Graph}

/-- Changing one block keeps a graph sound when the changed block's expressions are
writable. -/
theorem modifyBlock (hg : g.Sound) (q : QueryId) (h : Block → Block)
    (hq : ∀ e ∈ (h (g.block q)).expressions, e.Writable g.arguments.size) :
  (g.modifyBlock q h).Sound
  := by
  constructor
  · intro q' e he
    rw [block_modifyBlock] at he
    split at he
    · exact hq e he
    · exact hg.blocks q' e he
  · intro f j x hj hx
    exact hg.joins f j x hj hx
  · exact hg.unbound

/-- Changing one item keeps a graph sound when the changed item's join filter is
writable. -/
theorem modifyItem (hg : g.Sound) (f : FromId) (h : FromItem → FromItem)
    (hf : ∀ j x, (h (g.item f)).join = some j → j.extra = some x → x.Writable g.arguments.size) :
  (g.modifyItem f h).Sound
  := by
  constructor
  · intro q e he
    exact hg.blocks q e he
  · intro f' j x hj hx
    rw [item_modifyItem] at hj
    split at hj
    · exact hf j x hj hx
    · exact hg.joins f' j x hj hx
  · exact hg.unbound

/-- A graph stays sound when a parameter not yet bound is added. -/
theorem pushArgument (hg : g.Sound) (a : Argument) (ha : a.sqlOrdinals = []) :
  ({ g with arguments := g.arguments.push a } : Graph).Sound
  := by
  constructor
  · intro q e he
    exact Expr.Writable.mono (by simp) e (hg.blocks q e he)
  · intro f j x hj hx
    exact Expr.Writable.mono (by simp) x (hg.joins f j x hj hx)
  · intro b hb
    rcases Array.mem_push.mp hb with hb | rfl
    · exact hg.unbound b hb
    · exact ha

/-- Adding an item whose join filter is writable keeps a graph sound. -/
theorem pushItem (hg : g.Sound) (i : FromItem)
    (hi : ∀ j x, i.join = some j → j.extra = some x → x.Writable g.arguments.size) :
  ({ g with items := g.items.push i } : Graph).Sound
  := by
  constructor
  · intro q e he
    exact hg.blocks q e he
  · intro f j x hj hx
    simp only [item, Array.getElem?_push] at hj
    split at hj
    · exact hi j x hj hx
    · exact hg.joins f j x hj hx
  · exact hg.unbound

/-- Adding a block whose expressions are writable keeps a graph sound. -/
theorem pushBlock (hg : g.Sound) (b : Block)
    (hb : ∀ e ∈ b.expressions, e.Writable g.arguments.size) :
  ({ g with blocks := g.blocks.push b } : Graph).Sound
  := by
  constructor
  · intro q e he
    simp only [block, Array.getElem?_push] at he
    split at he
    · exact hb e he
    · exact hg.blocks q e he
  · intro f j x hj hx
    exact hg.joins f j x hj hx
  · exact hg.unbound

/-- The predicate of each join a sound graph holds is writable. -/
theorem predicate (hg : g.Sound) {f : FromId} {j : Join} (hj : (g.item f).join = some j) :
  j.predicate.Writable g.arguments.size
  := by
  cases hx : j.extra with
  | none => simp [Join.predicate, hx, Expr.WritableAll]
  | some x => simpa [Join.predicate, hx, Expr.WritableAll] using hg.joins f j x hj hx

/-- The tables of correlated sub-queries play no part in soundness. -/
theorem withTables (hg : g.Sound) (ts : List Table) :
  ({ g with correlatedTables := ts } : Graph).Sound
  := ⟨hg.blocks, hg.joins, hg.unbound⟩

end Sound

end Graph

end EntityQuery
