import EntityQuery.Query.Joins.Elimination
import EntityQuery.Query.Joins.Semantics
import EntityQuery.Query.Joins.Bulk

/-!
# Optimizing a graph

`Graph.optimize` runs once per statement over every block, nested blocks first: it absorbs
join conditions, removes joins that nothing needs, decides inner and outer joins, places
outer joins after their parents, and moves the joins of an UPDATE or DELETE into a correlated
sub-query. A sub-query made by the last step is not visited again.
-/

namespace EntityQuery

namespace Graph

/-- Optimize one block. -/
def optimizeBlock (g : Graph) (q : QueryId) : Except Reason Graph :=
  let g := g.absorbJoins q
  let g := g.eliminateJoins q
  let g := g.inferSemantics q
  let g := g.reorderOuter q
  g.correlateBulkJoins q

/-- Optimize every block, the last made first. -/
def optimize (g : Graph) : Except Reason Graph :=
  (List.range g.blocks.size).reverse.foldlM (fun g i => g.optimizeBlock ⟨i⟩) g

end Graph

end EntityQuery
