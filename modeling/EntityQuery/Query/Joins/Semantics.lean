import EntityQuery.Query.Graph

/-!
# Inner and outer joins

`Graph.inferSemantics` decides the joins of a block that the text left open. A join to an
item of an enclosing block is inner. Otherwise a join is inner when some condition of the
block mentions its target and every condition that does cannot hold for a target of NULLs;
the conditions are the parts of the WHERE conjunction, the block's filters and the parts of
the HAVING conjunction. Then an outer join with an inner join below it becomes inner, as the
inner join drops the rows it would keep.

`Graph.reorderOuter` places each outer join of a block right after the item it joins, keeping
the order of the rest.
-/

namespace EntityQuery

namespace Graph

/-- The conditions of block `q` that decide the semantics of its joins. -/
def conditions (g : Graph) (q : QueryId) : List Expr :=
  let b := g.block q
  let having := match b.body with
    | .select s => (s.having.map Expr.conjuncts).getD []
    | _ => []
  ((b.body.whereClause.map Expr.conjuncts).getD []) ++ b.filters ++ having

/-- Whether the join of `f` is inner, given the conditions of its block. -/
def holdsInner (g : Graph) (conditions : List Expr) (f : FromId) : Bool :=
  let mentioning := conditions.filter (g.uses f)
  !mentioning.isEmpty && mentioning.all (Expr.requires f)

/-- Decide the open joins of the items `live` of block `q`, in order. -/
def decideJoins (g : Graph) (q : QueryId) (conditions : List Expr) (live : List FromId) : Graph :=
  live.foldl (fun g f =>
    let item := g.item f
    match item.join with
    | none => g
    | some j =>
      let correlated := (g.item j.link.parent).owner != q
      if item.semantics != .unknown && !correlated then g
      else
        let inner := correlated || g.holdsInner conditions f
        g.modifyItem f fun i => { i with semantics := if inner then .inner else .outer }) g

/-- One pass making the outer parents in `live` of inner items of `live` inner, and whether
it changed an item. -/
def innerParentsPass (g : Graph) (live : List FromId) : Graph × Bool :=
  live.foldl (fun (acc : Graph × Bool) f =>
    let (g, changed) := acc
    let item := g.item f
    if item.semantics != .inner then (g, changed)
    else
      match item.join with
      | none => (g, changed)
      | some j =>
        let parent := j.link.parent
        if (g.item parent).isOuter && live.contains parent then
          (g.modifyItem parent fun i => { i with semantics := .inner }, true)
        else (g, changed)) (g, false)

/-- Repeat `innerParentsPass` until nothing changes; each change makes one more item inner,
so one more pass than there are items suffices. -/
def innerParents (g : Graph) (live : List FromId) : Graph :=
  go (live.length + 1) g
where
  /-- At most `fuel` more passes. -/
  go : Nat → Graph → Graph
    | 0, g => g
    | fuel + 1, g =>
      match g.innerParentsPass live with
      | (g', true) => go fuel g'
      | (g', false) => g'

/-- Decide the open joins of block `q`. -/
def inferSemantics (g : Graph) (q : QueryId) : Graph :=
  let live := (g.block q).fromList
  let g := g.decideJoins q (g.conditions q) live
  g.innerParents live

/-- The item that `f` is outer-joined to, if it is in `list`. -/
def outerParent (g : Graph) (list : List FromId) (f : FromId) : Option FromId :=
  let item := g.item f
  if !item.isOuter then none
  else
    match item.join with
    | some j => if list.contains j.link.parent then some j.link.parent else none
    | none => none

/-- The item `f` followed by the items outer-joined to it, each followed by its own, in the order of
`list`. An outer join's parent is an item made before it, so chains of outer joins are at
most as long as the list. -/
def placeOuter (g : Graph) (list : List FromId) : Nat → FromId → List FromId
  | 0, f => [f]
  | fuel + 1, f =>
    f :: (list.filter (g.outerParent list · == some f)).flatMap (g.placeOuter list fuel)

/-- Place each outer join of block `q` right after its parent. -/
def reorderOuter (g : Graph) (q : QueryId) : Graph :=
  let list := (g.block q).fromList
  let ordered := (list.filter fun f => (g.outerParent list f).isNone).flatMap
    (g.placeOuter list (list.length + 1))
  g.modifyBlock q fun b => { b with fromList := ordered }

end Graph

end EntityQuery
