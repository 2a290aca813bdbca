import EntityQuery.Proofs.Graph.OuterOrder
import EntityQuery.Proofs.Graph.Parsed
import EntityQuery.Proofs.Compiled.Bindings
import EntityQuery.Proofs.Query.JoinFree

/-!
# The FROM clause is a valid join order

The writer renders the FROM list of a block item by item: the first after `FROM`, each outer
item as `LEFT OUTER JOIN` with its join predicate after `ON`, each other item after a comma;
the join predicates of the items not written with `ON` go to `WHERE`. The ON predicate of an
outer item is the equality of the link columns of the item and its parent, with the test of
its discriminator (`Graph.uses_predicate`). So the clause is valid when the first item is not
outer and every outer item comes after its parent with only outer items between them, in the
same comma-separated segment.

`compile_fromClause_joinOrder` states that: `reorderOuter` gives such an order for every
block of a well-formed graph, and in the graph of every compiled query each block's FROM list
is in join order, its first item is not outer, the ON predicate of each outer item mentions
the item and its parent only, and the join predicates written in WHERE are those of the items
that are not outer (`Sql.whereJoins_of_head`).
-/

namespace EntityQuery

namespace Graph

variable {f : FromId} {ignoring : List String} {sub : QueryId → Bool}

theorem touchesAny_append (ps qs : List Expr) :
  touchesAny f ignoring sub (ps ++ qs) = (touchesAny f ignoring sub ps || touchesAny f ignoring sub qs)
  := by
  induction ps with
  | nil => simp [touchesAny]
  | cons e ps ih => simp [touchesAny, ih, Bool.or_assoc]

theorem touchesAny_eq_true {ps : List Expr} :
  touchesAny f ignoring sub ps = true ↔ ∃ e ∈ ps, touchesWith f ignoring sub e = true
  := by
  induction ps with
  | nil => simp [touchesAny]
  | cons e ps ih => simp [touchesAny, ih]

/-- Flattening nested conjunctions keeps what the parts refer to. -/
theorem touchesAny_flattenConj (ps : List Expr) :
  touchesAny f ignoring sub (Expr.flattenConj ps) = touchesAny f ignoring sub ps
  := by
  induction ps with
  | nil => rfl
  | cons e ps ih =>
    cases e <;> simp [Expr.flattenConj, touchesAny, touchesAny_append, ih, touchesWith]

/-- A conjunction refers to an item when one of its parts does. -/
theorem touchesWith_conjunction (ps : List Expr) :
  touchesWith f ignoring sub (Expr.conjunction ps) = touchesAny f ignoring sub ps
  := by
  rw [← touchesAny_flattenConj]
  unfold Expr.conjunction
  split
  · rename_i e he
    rw [he]
    simp [touchesAny]
  · simp [touchesWith]

/-- The predicate of a join whose filter tests the item joined mentions the item and its parent
only. -/
theorem uses_predicate {g : Graph} {j : Join} {c y : FromId} (ht : j.link.target = c)
    (hx : ∀ x ∈ j.extra, x.IsDiscriminatorOf c) (h : g.uses y j.predicate = true) :
  y = c ∨ y = j.link.parent
  := by
  unfold uses touches Join.predicate Link.predicate at h
  rw [touchesWith_conjunction, touchesAny_eq_true] at h
  obtain ⟨e, he, hte⟩ := h
  rcases List.mem_append.mp he with he | he
  · obtain ⟨⟨p, t⟩, -, rfl⟩ := List.mem_map.mp he
    simp only [touchesWith, Expr.col, beq_iff_eq, List.contains_nil, Bool.not_false,
      Bool.and_true, Bool.or_eq_true] at hte
    rcases hte with hte | hte
    · exact .inr hte.symm
    · exact .inl (ht ▸ hte.symm)
  · obtain ⟨column, value, rfl⟩ := hx e (Option.mem_toList.mp he)
    simp only [touchesWith, Expr.col, beq_iff_eq, List.contains_nil, Bool.not_false,
      Bool.and_true, Bool.or_false] at hte
    exact .inl hte.symm

/-- A block of a well-formed graph in join order, whose join filters test their own items, has a
valid FROM clause: its first item is not outer, and each outer item comes after its parent with
only outer items between them, and its predicate mentions the item and its parent only. -/
theorem fromClause_of_joinOrdered {g : Graph} (hwf : g.WellFormed) (hf : g.OwnJoinFilters)
    {b : QueryId} (ho : g.JoinOrdered (g.block b).fromList) :
  (∀ x ∈ (g.block b).fromList.head?, (g.item x).isOuter = false) ∧
    ∀ c ∈ (g.block b).fromList, (g.item c).isOuter → ∃ j, (g.item c).join = some j ∧
      (∃ pre mid post, (g.block b).fromList = pre ++ j.link.parent :: mid ++ c :: post ∧
        ∀ y ∈ mid, Relation.TransGen (g.OuterChild (g.block b).fromList) j.link.parent y ∧
          (g.item y).isOuter) ∧
      ∀ y, g.uses y j.predicate = true → y = c ∨ y = j.link.parent
  := by
  refine ⟨fun x hx => ?_, fun c hc hout => ?_⟩
  · obtain ⟨rest, hrest⟩ : ∃ rest, (g.block b).fromList = x :: rest := by
      cases hl : (g.block b).fromList with
      | nil => simp [hl] at hx
      | cons y rest =>
        rw [hl] at hx
        cases hx
        exact ⟨rest, rfl⟩
    have hnd := hwf.fromNodup b
    rw [hrest] at ho hnd
    exact ho.head_not_outer hnd
  · obtain ⟨j, hj, hsplit⟩ := ho c hc hout
    exact ⟨j, hj, hsplit, fun y hy => uses_predicate (hwf.join c j hj).1 (hf c j hj) hy⟩

end Graph

/-- Past the first position, a function of the item alone picks from the numbered list what it
picks from the list. -/
theorem filterMap_zip_range'_succ {α β : Type} (F : Nat × α → Option β) (G : α → Option β)
    (hF : ∀ i a, F (i + 1, a) = G a) (l : List α) (k : Nat) :
  ((List.range' (k + 1) l.length).zip l).filterMap F = l.filterMap G
  := by
  induction l generalizing k with
  | nil => rfl
  | cons a l ih =>
    rw [List.length_cons, List.range'_succ, List.zip_cons_cons, List.filterMap_cons,
      List.filterMap_cons, hF, ih (k + 1)]

namespace Sql

/-- When the first item of a block is not outer, its WHERE clause takes the join predicates of
exactly the items that are not outer, in FROM order. -/
theorem whereJoins_of_head {g : Graph} {b : Block}
    (hhead : ∀ x ∈ b.fromList.head?, (g.item x).isOuter = false) :
  whereJoins g b =
    b.fromList.filterMap fun f => if (g.item f).isOuter then none else (g.item f).join.map Join.predicate
  := by
  unfold whereJoins numbered
  cases hl : b.fromList with
  | nil => rfl
  | cons x rest =>
    have hx : (g.item x).isOuter = false := hhead x (by simp [hl])
    rw [List.length_cons, List.range_eq_range', List.range'_succ, List.zip_cons_cons,
      List.filterMap_cons, List.filterMap_cons,
      filterMap_zip_range'_succ _
        (fun f => if (g.item f).isOuter then none else (g.item f).join.map Join.predicate) ?hF]
    case hF =>
      intro i f
      dsimp only
      cases (g.item f).join <;> cases (g.item f).isOuter <;> rfl
    dsimp only
    cases (g.item x).join <;> simp [hx]

end Sql

/-- Compiling renders each FROM clause in a valid join order. `reorderOuter` reorders the FROM
list of any block of a well-formed graph, as the optimizer's graphs are, into a permutation of
it in which the items not outer-joined to an item of the list keep their order and each item
outer-joined to a parent comes after it with only outer items below the parent between them.
The SQL of a compiled query is written from the optimized graph, and there every block lists
each item once and in that order: the first item is not outer, so it is not written with
`LEFT OUTER JOIN`, and each outer item comes after its join parent with only outer items, below
the parent, between them, so in the same comma-separated segment; its `ON` predicate mentions
only the item and that parent. The join predicates the block writes in `WHERE`
(`Sql.whereJoins`) are those of the other items, the items that are not outer, in FROM order. -/
theorem compile_fromClause_joinOrder {schema : Schema} {o : CompileOptions} {text : String}
    {c : CompiledQuery} (h : compile schema o text = .ok c) :
  (∀ (g : Graph) (q : QueryId), g.WellFormed →
    let list := (g.block q).fromList
    let ordered := ((g.reorderOuter q).block q).fromList
    ordered.Perm list ∧
      ordered.filter (fun f => (g.outerParent list f).isNone) =
        list.filter (fun f => (g.outerParent list f).isNone) ∧
      ∀ p f, f ∈ list → g.OuterChild list p f →
        ∃ pre mid post, ordered = pre ++ p :: mid ++ f :: post ∧
          ∀ y ∈ mid, Relation.TransGen (g.OuterChild list) p y ∧ (g.item y).isOuter) ∧
  ∃ p g, ParsedQuery.read schema o.aliasPrefix text = .ok p ∧ p.graph.optimize = .ok g ∧
    c.sql = (Sql.statement g o p.root).sql ∧
    ∀ b : QueryId,
      let list := (g.block b).fromList
      list.Nodup ∧ (∀ x ∈ list.head?, (g.item x).isOuter = false) ∧
        (∀ f ∈ list, (g.item f).isOuter → ∃ j, (g.item f).join = some j ∧
          (∃ pre mid post, list = pre ++ j.link.parent :: mid ++ f :: post ∧
            ∀ y ∈ mid, Relation.TransGen (g.OuterChild list) j.link.parent y ∧
              (g.item y).isOuter) ∧
          (∀ y, g.uses y j.predicate = true → y = f ∨ y = j.link.parent)) ∧
        Sql.whereJoins g (g.block b) = list.filterMap fun f =>
          if (g.item f).isOuter then none else (g.item f).join.map Join.predicate
  := by
  refine ⟨fun g q hg => Graph.reorderOuter_joinOrder hg q, ?_⟩
  obtain ⟨p, hread, hq⟩ := compile_eq_ok h
  obtain ⟨g, hopt, hsql, -, -⟩ := CompiledQuery.ofParsed_eq_ok hq
  obtain ⟨hwf, -⟩ := ParsedQuery.wellFormed_read hread
  obtain ⟨hwf', hf, hordered⟩ :=
    Graph.joinOrdered_optimize hwf (ParsedQuery.placed_read hread) hopt
  refine ⟨p, g, hread, hopt, hsql, fun b => ?_⟩
  obtain ⟨hhead, houter⟩ := Graph.fromClause_of_joinOrdered hwf' hf (hordered b)
  exact ⟨hwf'.fromNodup b, hhead, houter, Sql.whereJoins_of_head hhead⟩

/-- The outer join of an employee to its manager is written after the employee, and its
predicate mentions the employee and the manager only. -/
theorem managed_outer_join_ordered :
  ∃ c p g, compile Schema.managed {} "SELECT e, m FROM Employee e LEFT JOIN e.manager m" = .ok c ∧
    ParsedQuery.read Schema.managed "eql" "SELECT e, m FROM Employee e LEFT JOIN e.manager m" =
      .ok p ∧ p.graph.optimize = .ok g ∧
    (g.block ⟨0⟩).fromList = [⟨0⟩, ⟨1⟩] ∧ (g.item ⟨1⟩).isOuter = true ∧
    ∃ j, (g.item ⟨1⟩).join = some j ∧ j.link.parent = ⟨0⟩ ∧
      ∀ y, g.uses y j.predicate = true → y = ⟨1⟩ ∨ y = ⟨0⟩
  := by
  have hrun : (((ParsedQuery.read Schema.managed "eql"
      "SELECT e, m FROM Employee e LEFT JOIN e.manager m").toOption.bind
        fun p => p.graph.optimize.toOption).map fun g =>
        ((g.block ⟨0⟩).fromList.map (·.idx), (g.item ⟨1⟩).isOuter)) = some ([0, 1], true) := by
    decide +kernel
  have hcompile : (compile Schema.managed {}
      "SELECT e, m FROM Employee e LEFT JOIN e.manager m").isOk = true := by
    decide +kernel
  cases hc : compile Schema.managed {} "SELECT e, m FROM Employee e LEFT JOIN e.manager m" with
  | error e =>
    rw [hc] at hcompile
    cases hcompile
  | ok c =>
    obtain ⟨-, p, g, hread, hopt, -, hclause⟩ := compile_fromClause_joinOrder hc
    rw [hread] at hrun
    simp only [Except.toOption, Option.bind_some, hopt, Option.map_some, Option.some.injEq,
      Prod.mk.injEq] at hrun
    obtain ⟨hlist, hout⟩ := hrun
    have hlist' : (g.block ⟨0⟩).fromList = [⟨0⟩, ⟨1⟩] :=
      List.map_injective_iff.mpr (fun _ _ h => Graph.FromId.ext_idx h) hlist
    obtain ⟨-, -, hjoin, -⟩ := hclause ⟨0⟩
    rw [hlist'] at hjoin
    obtain ⟨j, hj, ⟨pre, mid, post, hsplit, -⟩, huses⟩ := hjoin ⟨1⟩ (by simp) hout
    have hparent : j.link.parent = ⟨0⟩ := by
      cases pre with
      | nil =>
        simp only [List.nil_append, List.cons_append, List.cons.injEq] at hsplit
        exact hsplit.1.symm
      | cons a pre =>
        simp only [List.cons_append, List.cons.injEq] at hsplit
        obtain ⟨-, hsplit⟩ := hsplit
        cases pre <;> simp at hsplit
    exact ⟨c, p, g, rfl, hread, hopt, hlist', hout, j, hj, hparent,
      fun y hy => hparent ▸ huses y hy⟩

end EntityQuery
