import EntityQuery.Error
import EntityQuery.Query.Graph

/-!
# Joins of UPDATE and DELETE

An UPDATE or DELETE names a single table. `Graph.correlateBulkJoins` moves the inner joins
still left in such a statement into a correlated `EXISTS (SELECT 1 ...)`, together with
every filter and every part of the WHERE conjunction that reads them. An outer join, or a
joined item that a SET value reads, has no such form and fails with `bulkStatementJoin`.
-/

namespace EntityQuery

namespace Graph

/-- Move the joins of the UPDATE or DELETE block `q` into a correlated sub-query. -/
def correlateBulkJoins (g : Graph) (q : QueryId) : Except Reason Graph := do
  let b := g.block q
  if b.body.isSelect || b.fromList.length ≤ 1 then return g
  let joined := b.fromList.drop 1
  let readsJoined (e : Expr) : Bool := joined.any (g.uses · e)
  let assignsJoined := match b.body with
    | .update assignments _ => assignments.any (readsJoined ·.value)
    | _ => false
  let outer := joined.any fun f => (g.item f).semantics != .inner
  if outer || assignsJoined then
    throw (.bulkStatementJoin (g.item ((joined.head?).getD default)).entityName)
  let (movedFilters, keptFilters) := b.filters.partition readsJoined
  let (moved, kept) := ((b.body.whereClause.map Expr.conjuncts).getD []).partition readsJoined
  let existsBlock : QueryId := ⟨g.blocks.size⟩
  let select : SelectBody :=
    { hasFrom := true, results := [.literal (.integer 1)], whereClause := Expr.andAll moved }
  let correlated : Block :=
    { id := existsBlock, parent := some q, fromList := joined, filters := movedFilters,
      body := .select select }
  let g := { g with blocks := g.blocks.push correlated }
  let g := joined.foldl (fun g f => g.modifyItem f fun i => { i with owner := existsBlock }) g
  pure (g.modifyBlock q fun b =>
    { b with
      fromList := b.fromList.take 1, filters := keptFilters,
      body := b.body.withWhere (Expr.andAll (kept ++ [.exists existsBlock])) })

end Graph

end EntityQuery
