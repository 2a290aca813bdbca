import EntityQuery.Query.Graph

/-!
# Absorbing and removing joins

Two steps on one block of a graph.

`Graph.absorbJoins` moves each `path = alias` join of the top-level WHERE conjunction into
the item it joins, which then becomes an inner join; a join that would close a cycle of
parents, or whose target already has a join, stays a condition. Afterwards every join left in
an expression of the block is written as its equality predicate.

`Graph.eliminateJoins` removes items whose only use is their own join, one at a time until
none is left, since one removal can make another possible. A to-one target read only through
the columns its parent holds is dropped, and those reads go to the parent's columns. A root
whose single child is a to-many join, read only through the link's columns, gives way to the
child. What the join guaranteed stays as filters: the link columns are not NULL.
-/

namespace EntityQuery

namespace Graph

/-- Whether the parents of `start` reach `target`, following at most `fuel` joins. -/
def parentsReach (g : Graph) (target : FromId) : Nat → FromId → Bool
  | 0, _ => false
  | fuel + 1, here =>
    here == target ||
      match (g.item here).join with
      | some j => g.parentsReach target fuel j.link.parent
      | none => false

/-- Whether the join `l` of a condition of block `q` may become the join of its target. -/
def canAbsorb (g : Graph) (q : QueryId) (l : Link) (extra : Option Expr) : Bool :=
  let target := g.item l.target
  target.owner == q && target.join.isNone && extra.isNone &&
    !g.parentsReach l.target (g.items.size + 1) l.parent

/-- Absorb the joins of the WHERE conjunction of `q` into their targets, then write every join
left in the block's expressions as its predicate. -/
def absorbJoins (g : Graph) (q : QueryId) : Graph :=
  let g := match (g.block q).body.whereClause with
    | none => g
    | some w =>
      let (g, kept) := w.conjuncts.foldl (fun (acc : Graph × List Expr) (c : Expr) =>
        let (g, kept) := acc
        match c with
        | .join l extra =>
          if g.canAbsorb q l extra then
            (g.modifyItem l.target fun i => { i with semantics := .inner, join := some ⟨l, extra⟩ },
              kept)
          else (g, kept ++ [c])
        | _ => (g, kept ++ [c])) (g, [])
      g.modifyBlock q fun b => { b with body := b.body.withWhere (Expr.andAll kept) }
  g.modifyBlock q (Block.mapExprs Expr.replaceJoins)

/-- The items of every block whose join starts at `parent`, block by block. -/
def childrenOf (g : Graph) (parent : FromId) : List FromId :=
  (g.blocks.toList.flatMap (·.fromList)).filter fun i =>
    match (g.item i).join with
    | some j => j.link.parent == parent
    | none => false

/-- Whether `f` is a to-one target of block `q` read only through the columns its parent
holds: not outer, not filtered, not fetched, with no joins of its own, and not the only item
of its block. -/
def isUnusedTarget (g : Graph) (q : QueryId) (f : FromId) : Bool :=
  let item := g.item f
  match item.join with
  | none => false
  | some j =>
    j.link.kind == .toOne && item.semantics != .outer && j.extra.isNone && !item.fetch &&
      (g.childrenOf f).isEmpty && (g.block q).fromList.length > 1 &&
      !g.queryTouchesExcept q f j.link.targetColumns (some f)

/-- The single child of the root `f` of block `q`, when it is a to-many inner join of the
block and `f` is read only through the link's columns. -/
def unusedParent (g : Graph) (q : QueryId) (f : FromId) : Option FromId :=
  let item := g.item f
  if item.join.isSome || item.fetch || item.owner != q then none
  else
    match g.childrenOf f with
    | [child] =>
      let childItem := g.item child
      match childItem.join with
      | none => none
      | some j =>
        if j.link.kind != .toMany || childItem.semantics == .outer || childItem.owner != q then none
        else if g.queryTouchesExcept q f j.link.parentColumns (some child) then none
        else some child
    | _ => none

/-- Apply `h` to every column of block `q` and the blocks nested in it, join filters
included. -/
def mapColumnsBelow (g : Graph) (q : QueryId) (h : ColumnRef → ColumnRef) : Graph :=
  (g.subtree q).foldl (fun g b =>
    let g := g.modifyBlock b (Block.mapExprs (Expr.mapColumns h))
    (g.block b).fromList.foldl (fun g i =>
      g.modifyItem i fun item =>
        match item.join with
        | some j =>
          match j.extra with
          | some x => { item with join := some { j with extra := some (x.mapColumns h) } }
          | none => item
        | none => item) g) g

/-- The test that a column of `f` is not NULL. -/
def notNull (f : FromId) (column : String) : Expr :=
  .isNull (Expr.col f column) true

/-- Add a filter to block `q`, unless it has an equal one. -/
def pushFilter (g : Graph) (q : QueryId) (filter : Expr) : Graph :=
  g.modifyBlock q fun b => if b.filters.contains filter then b else { b with filters := b.filters ++ [filter] }

/-- Drop the to-one target `f`: its columns are read from the parent, and an inner join
leaves the test that the parent's link columns are not NULL. -/
def eliminateTarget (g : Graph) (q : QueryId) (f : FromId) : Graph :=
  let item := g.item f
  match item.join with
  | none => g
  | some j =>
    let g := g.mapColumnsBelow q fun c =>
      if c.source == f then
        match j.link.parentColumnFor? c.column with
        | some column => ⟨j.link.parent, column⟩
        | none => c
      else c
    let g := g.modifyBlock q fun b => { b with fromList := b.fromList.filter (· != f) }
    if item.semantics == .inner then
      j.link.parentColumns.foldl (fun g column => g.pushFilter q (notNull j.link.parent column)) g
    else g

/-- Replace the root `f` by its to-many child: the root's columns are read from the child,
which loses its join, and the child's link columns must not be NULL. -/
def eliminateParent (g : Graph) (q : QueryId) (f child : FromId) : Graph :=
  match (g.item child).join with
  | none => g
  | some j =>
    let g := g.modifyItem child fun i => { i with join := none }
    let g := g.mapColumnsBelow q fun c =>
      if c.source == f then
        match j.link.targetColumnFor? c.column with
        | some column => ⟨child, column⟩
        | none => c
      else c
    let g := g.modifyBlock q fun b =>
      { b with fromList := (b.fromList.filter (· != child)).map fun i => if i == f then child else i }
    let g := j.link.targetColumns.foldl (fun g column => g.pushFilter q (notNull child column)) g
    match j.extra with
    | some x => g.pushFilter q x
    | none => g

/-- Remove the first item of block `q` that can go, if there is one. -/
def eliminateOne (g : Graph) (q : QueryId) : Option Graph :=
  go (g.block q).fromList
where
  /-- Try the items in order. -/
  go : List FromId → Option Graph
    | [] => none
    | f :: rest =>
      if g.isUnusedTarget q f then some (g.eliminateTarget q f)
      else
        match g.unusedParent q f with
        | some child => some (g.eliminateParent q f child)
        | none => go rest

/-- Remove items of block `q` until none can go. Each removal shortens the FROM list, so there
are at most as many rounds as items. -/
def eliminateJoins (g : Graph) (q : QueryId) : Graph :=
  go ((g.block q).fromList.length + 1) g
where
  /-- At most `fuel` more removals. -/
  go : Nat → Graph → Graph
    | 0, g => g
    | fuel + 1, g =>
      match g.eliminateOne q with
      | some g' => go fuel g'
      | none => g

end Graph

end EntityQuery
