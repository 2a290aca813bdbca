import EntityQuery.Proofs.Graph.Parsed
import EntityQuery.Proofs.Graph.Optimized
import EntityQuery.Proofs.Compiled.Bindings

/-!
# Compiling keeps the graph well-formed

A compilation reads the text into a graph, optimizes the graph, writes its statement as SQL
and binds each `?` marker of the SQL to the parameter it names. `compile_wellFormed` says
that the graph is well-formed at every stage: reading gives a well-formed graph with its
statement among its blocks (`ParsedQuery.wellFormed_read`), each pass of the optimizer keeps
it well-formed (`Graph.WellFormed.optimize`), every marker the writer emits names a parameter
of the graph (`Sql.markers_statement`), so that binding gives every marker its binding and
changes nothing but the ordinals of the parameters.

Unlike the markers of `Sql.placeholders_statement`, those of `Sql.markers_statement` are
read off the pieces the writer emits rather than off the SQL text, so they bind parameters of
the graph whatever texts the options give `TRUE` and `FALSE`.
-/

namespace EntityQuery

namespace Graph.WellFormed

variable {g : Graph}

/-- The predicate of a join of a well-formed graph is within the graph. -/
theorem within_predicate (hg : g.WellFormed) {f : FromId} {j : Join}
    (hj : (g.item f).join = some j) :
  j.predicate.Within g.extent
  := by
  obtain ⟨htarget, hparent, hextra⟩ := hg.join f j hj
  exact Expr.within_linkPredicate ⟨hparent, htarget ▸ lt_of_join hj⟩ hextra

/-- A well-formed graph stays well-formed with other arguments, as many as it had: nothing but
the number of its arguments is read by its invariant. -/
theorem withArguments (hg : g.WellFormed) {args : Array Argument}
    (hsize : args.size = g.arguments.size) :
  ({ g with arguments := args } : Graph).WellFormed
  := by
  have hx : ({ g with arguments := args } : Graph).extent = g.extent := by
    simp [Graph.extent, hsize]
  exact { hg with
    join := fun f j hj => hx ▸ hg.join f j hj
    exprs := fun q e he => hx ▸ hg.exprs q e he }

end Graph.WellFormed

namespace Sql

/-! ### Markers of the written pieces -/

/-- Every marker among the pieces binds one of the first `n` parameters. -/
def MarkersBelow (n : Nat) (ps : List Piece) : Prop := ∀ i ∈ ps.filterMap Piece.argument?, i < n

section

variable {n : Nat}

@[simp]
theorem markersBelow_nil : MarkersBelow n [] := by simp [MarkersBelow]

@[simp]
theorem markersBelow_append {ps qs : List Piece} :
  MarkersBelow n (ps ++ qs) ↔ MarkersBelow n ps ∧ MarkersBelow n qs
  := by
  simp [MarkersBelow, or_imp, forall_and]

@[simp]
theorem markersBelow_text {s : String} : MarkersBelow n (text s) := by
  simp [MarkersBelow, text, Piece.argument?]

@[simp]
theorem markersBelow_marker {i : Nat} : MarkersBelow n [.marker i] ↔ i < n := by
  simp [MarkersBelow, Piece.argument?]

@[simp]
theorem markersBelow_paren {ps : List Piece} : MarkersBelow n (paren ps) ↔ MarkersBelow n ps := by
  simp [paren]

@[simp]
theorem markersBelow_flatMap {α : Type} {l : List α} {f : α → List Piece} :
  MarkersBelow n (l.flatMap f) ↔ ∀ x ∈ l, MarkersBelow n (f x)
  := by
  induction l with
  | nil => simp
  | cons x l ih => simp [ih]

@[simp]
theorem markersBelow_ite {c : Prop} [Decidable c] {ps qs : List Piece} :
  MarkersBelow n (if c then ps else qs) ↔ (c → MarkersBelow n ps) ∧ (¬c → MarkersBelow n qs)
  := by
  split <;> simp_all

/-- Unlike soundness, the markers of groups do not depend on the separator between them. -/
@[simp]
theorem markersBelow_sepBy {sep : String} {groups : List (List Piece)} :
  MarkersBelow n (sepBy sep groups) ↔ ∀ p ∈ groups, MarkersBelow n p
  := by
  cases groups with
  | nil => simp [sepBy]
  | cons p ps => simp [sepBy]

@[simp]
theorem markersBelow_operand {e : Expr} {ps : List Piece} :
  MarkersBelow n (operand e ps) ↔ MarkersBelow n ps
  := by
  unfold operand
  split
  · rfl
  · split <;> simp

@[simp]
theorem markersBelow_disjunct {e : Expr} {ps : List Piece} :
  MarkersBelow n (disjunct e ps) ↔ MarkersBelow n ps
  := by
  unfold disjunct
  split <;> simp

/-- The equalities of a link are text. -/
theorem markersBelow_linkEqualities (g : Graph) (l : Link) :
  ∀ p ∈ linkEqualities g l, MarkersBelow n p
  := by
  intro p hp
  obtain ⟨⟨a, b⟩, -, rfl⟩ := List.mem_map.mp hp
  exact markersBelow_text

end

/-! ### Writing a well-formed graph -/

variable {g : Graph} {o : CompileOptions}

/-- Every expression within a graph of extent `x` is written with markers of its parameters
only, when every sub-query is. The induction follows the writer: one case for each form of
expression, one for each list of parts; the options only give text. -/
theorem markersBelow_exprWith {x : Extent} {sub : QueryId → List Piece}
    (hsub : ∀ q, MarkersBelow x.params (sub q)) :
  (∀ e : Expr, e.Within x → MarkersBelow x.params (exprWith g o sub e)) ∧
    ∀ es : List Expr, Expr.WithinAll x es → ∀ ps ∈ exprsWith g o sub es, MarkersBelow x.params ps
  := by
  apply exprWith.mutual_induct g o sub
    (fun e => e.Within x → MarkersBelow x.params (exprWith g o sub e))
    (fun es => Expr.WithinAll x es → ∀ ps ∈ exprsWith g o sub es, MarkersBelow x.params ps)
  · intro l _
    simp [exprWith]
  · simp [exprWith]
  · intro i h
    simpa [exprWith, Expr.Within] using h
  · intro c _
    simp [exprWith]
  · intro f _
    simp [exprWith]
  · intro f _
    simp [exprWith]
  · intro c _
    simp [exprWith]
  · intro e ih h
    simp [exprWith, ih h]
  · intro e ih h
    simp [exprWith, ih h]
  · intro e ih h
    simp [exprWith, ih h]
  · intro op l r hop ihl ihr h
    simp [exprWith, hop, ihl h.1, ihr h.2]
  · intro op l r hop ihl ihr h
    simp [exprWith, hop, ihl h.1, ihr h.2]
  · intro l r ihl ihr h
    simp [exprWith, ihl h.1, ihr h.2]
  · intro e lo hi negated ihe ihlo ihhi h
    simp [exprWith, ihe h.1, ihlo h.2.1, ihhi h.2.2]
  · intro e p escape negated ihe ihp h
    cases escape <;> simp [exprWith, ihe h.1, ihp h.2]
  · intro e q negated ihe h
    simp [exprWith, ihe h.1, hsub]
  · intro e vs negated hvs ihe ihvs h
    simpa [exprWith, ihe h.1] using ihvs h.2
  · intro e negated ihe h
    simp [exprWith, ihe h]
  · intro c negated
    simp [exprWith]
  · intro item c negated ihitem h
    have hitem := forall_mem_zipWith (f := operand) (fun _ _ h => markersBelow_operand.mpr h) item (ihitem h.1)
    simp only [exprWith, markersBelow_append, markersBelow_text, markersBelow_flatMap, true_and,
      and_true]
    intro kv hkv
    exact hitem kv.2 (List.of_mem_zip hkv).2
  · intro c
    simp [exprWith]
  · intro name args distinct ihargs h
    simpa [exprWith] using ihargs h
  · intro spec c s ihc ihs h
    cases spec <;> simp [exprWith, ihc h.1, ihs h.2]
  · intro spec s ihs h
    cases spec <;> simp [exprWith, ihs h]
  · intro a b iha ihb h
    simp [exprWith, iha h.1, ihb h.2]
  · intro c t e ihc iht ihe h
    simp [exprWith, ihc h.1, iht h.2.1, ihe h.2.2]
  · intro f _
    simp [exprWith]
  · intro parts ih h
    simpa [exprWith] using ih h
  · intro parts ih h
    simpa [exprWith] using
      forall_mem_zipWith (f := disjunct) (fun _ _ h => markersBelow_disjunct.mpr h) parts (ih h)
  · intro q _
    simp [exprWith, hsub]
  · intro q _
    simp [exprWith, hsub]
  · intro qt q _
    simp [exprWith, hsub]
  · intro l e ihe h
    simpa [exprWith, or_imp, forall_and, ihe h.2] using markersBelow_linkEqualities g l
  · intro l _
    simpa [exprWith] using markersBelow_linkEqualities g l
  · intro _ ps hps
    simp [exprsWith] at hps
  · intro e es ihe ihes h
    simp only [exprsWith, List.mem_cons, forall_eq_or_imp]
    exact ⟨ihe h.1, ihes h.2⟩

/-- The WHERE clause of block `q` of a well-formed graph with the condition `c` binds
parameters of the graph only, when `c` is within the graph and expressions within the graph
are written so. -/
theorem markersBelow_where (hg : g.WellFormed) {write : Expr → List Piece} (q : QueryId)
    (c : Option Expr)
    (hwrite : ∀ e, e.Within g.extent → MarkersBelow g.arguments.size (write e))
    (hc : ∀ x, c = some x → x.Within g.extent) :
  let parts := whereJoins g (g.block q) ++ (g.block q).filters ++ c.toList
  MarkersBelow g.arguments.size
    (if parts.isEmpty then [] else text " WHERE " ++ sepBy " AND " (parts.map write))
  := by
  intro parts
  split
  · exact markersBelow_nil
  · simp only [markersBelow_append, markersBelow_text, markersBelow_sepBy, List.forall_mem_map,
      true_and]
    intro e he
    apply hwrite
    simp only [parts, whereJoins, List.mem_append, Option.mem_toList, List.mem_filterMap] at he
    rcases he with (⟨⟨i, f⟩, -, hf⟩ | he) | he
    · split at hf
      · rename_i j hj
        split at hf
        · cases hf
          exact hg.within_predicate hj
        · cases hf
      · cases hf
    · exact hg.exprs q e (List.mem_append_left _ he)
    · exact hc e he

/-- Every block of a well-formed graph is written with markers of its parameters only. The
induction is on the depth of sub-queries left to write, one case for each kind of statement;
the expressions of a block are those the graph holds, within the graph. -/
theorem markersBelow_query (hg : g.WellFormed) :
  ∀ d q nested, MarkersBelow g.arguments.size (query g o d q nested)
  := by
  apply query.induct g o
  · intro q nested
    simp [query]
  · intro q nested d _ s hs ih
    have hwrite := (markersBelow_exprWith (g := g) (o := o) (x := g.extent) ih).1
    have hexprs := hg.exprs q
    have hbody : (g.block q).body = .select s := hs
    simp only [Block.expressions, Body.expressions, hbody, List.mem_append, or_imp, forall_and,
      Option.mem_toList, List.mem_map, and_assoc] at hexprs
    obtain ⟨-, hresults, hwhere, hgroup, hhaving, horder⟩ := hexprs
    simp only [query, hbody, markersBelow_append, and_assoc]
    refine ⟨markersBelow_text, by split <;> simp, ?_, by split <;> simp, ?_,
      markersBelow_where hg q s.whereClause hwrite hwhere, ?_, ?_, ?_⟩
    · simp only [markersBelow_sepBy, List.forall_mem_map]
      intro r hr
      split
      · split
        · exact hwrite _ (hresults _ hr)
        · exact markersBelow_text
      · exact hwrite r (hresults r hr)
    · split
      · rw [markersBelow_flatMap]
        intro x _
        split
        · exact markersBelow_text
        · split
          · simp only [markersBelow_append, markersBelow_text, true_and]
            split
            · rename_i j hj
              simpa using hwrite _ (hg.within_predicate hj)
            · exact markersBelow_nil
          · exact markersBelow_text
      · exact markersBelow_nil
    · split
      · exact markersBelow_nil
      · simpa using fun e he => hwrite e (hgroup e he)
    · split
      · rename_i h hh
        simpa using hwrite h (hhaving h hh)
      · exact markersBelow_nil
    · split
      · exact markersBelow_nil
      · simp only [markersBelow_append, markersBelow_text, markersBelow_sepBy, List.forall_mem_map,
          true_and]
        intro t ht
        simpa using hwrite t.expr (horder t.expr ⟨t, ht, rfl⟩)
  · intro q nested d _ assignments w hs ih
    have hwrite := (markersBelow_exprWith (g := g) (o := o) (x := g.extent) ih).1
    have hexprs := hg.exprs q
    have hbody : (g.block q).body = .update assignments w := hs
    simp only [Block.expressions, Body.expressions, hbody, List.mem_append, or_imp, forall_and,
      Option.mem_toList, List.mem_map] at hexprs
    obtain ⟨-, hvalues, hwhere⟩ := hexprs
    simp only [query, hbody, markersBelow_append]
    refine ⟨⟨markersBelow_text, ?_⟩, markersBelow_where hg q w hwrite hwhere⟩
    rw [markersBelow_sepBy]
    intro p hp
    obtain ⟨a, ha, hp⟩ := List.mem_flatMap.mp hp
    obtain ⟨c, -, rfl⟩ := List.mem_map.mp hp
    simpa using hwrite a.value (hvalues a.value ⟨a, ha, rfl⟩)
  · intro q nested d _ w hs ih
    have hwrite := (markersBelow_exprWith (g := g) (o := o) (x := g.extent) ih).1
    have hexprs := hg.exprs q
    have hbody : (g.block q).body = .delete w := hs
    simp only [Block.expressions, Body.expressions, hbody, List.mem_append, or_imp, forall_and,
      Option.mem_toList] at hexprs
    obtain ⟨-, hwhere⟩ := hexprs
    simp only [query, hbody, markersBelow_append]
    exact ⟨markersBelow_text, markersBelow_where hg q w hwrite hwhere⟩

/-- Every marker of the statement of a well-formed graph binds one of its parameters, whatever
the options. -/
theorem markers_statement (hg : g.WellFormed) (o : CompileOptions) (root : QueryId) :
  ∀ i ∈ (statement g o root).markers, i < g.arguments.size
  := markersBelow_query hg (g.blocks.size + 1) root false

end Sql

/-! ### Compiling -/

/-- Compiling keeps the query graph well-formed at every stage. The graph read from the text is
well-formed and has the statement among its blocks; the optimized graph is well-formed; the
SQL is that of the statement written from it, and each of its markers names a parameter of
the graph, so that binding gives each marker one binding; and the compiled query's graph, the
optimized one with the ordinals of its parameters bound, is well-formed. -/
theorem compile_wellFormed {schema : Schema} {o : CompileOptions} {text : String}
    {c : CompiledQuery} (h : compile schema o text = .ok c) :
  ∃ p g, ParsedQuery.read schema o.aliasPrefix text = .ok p ∧
    p.graph.WellFormed ∧ p.root.idx < p.graph.blocks.size ∧
    p.graph.optimize = .ok g ∧ g.WellFormed ∧
    c.sql = (Sql.statement g o p.root).sql ∧
    (∀ i ∈ (Sql.statement g o p.root).markers, i < g.arguments.size) ∧
    c.arguments.length = (Sql.statement g o p.root).markers.length ∧
    c.graph.WellFormed
  := by
  obtain ⟨p, hread, hq⟩ := compile_eq_ok h
  obtain ⟨g, hopt, hsql, hbind, -⟩ := CompiledQuery.ofParsed_eq_ok hq
  obtain ⟨hp, hroot⟩ := ParsedQuery.wellFormed_read hread
  have hg := hp.optimize hopt
  have hmarkers := Sql.markers_statement hg o p.root
  obtain ⟨hgraph, hsize, hcount, -, -⟩ := Graph.bindMarkers_spec g _ hmarkers
  rw [hbind] at hgraph hsize hcount
  dsimp only at hgraph hsize hcount
  refine ⟨p, g, hread, hp, hroot, hopt, hg, hsql, hmarkers, hcount, ?_⟩
  rw [hgraph]
  exact hg.withArguments hsize

/-- A query of the staff schema with a parameter and a correlated sub-query compiles, with `?`
as the text of `TRUE`, to a query whose graph is well-formed. -/
theorem staff_subquery_wellFormed :
  ∃ c, compile Schema.staff { trueLiteral := "?" }
      "SELECT e FROM Employee e WHERE e.name = :n OR EXISTS (SELECT f FROM Employee f WHERE f.name = e.name AND TRUE)" = .ok c ∧
    c.graph.WellFormed
  := by
  have hrun : (compile Schema.staff { trueLiteral := "?" }
      "SELECT e FROM Employee e WHERE e.name = :n OR EXISTS (SELECT f FROM Employee f WHERE f.name = e.name AND TRUE)").isOk = true := by
    decide +kernel
  cases hc : compile Schema.staff { trueLiteral := "?" }
      "SELECT e FROM Employee e WHERE e.name = :n OR EXISTS (SELECT f FROM Employee f WHERE f.name = e.name AND TRUE)" with
  | error e =>
    rw [hc] at hrun
    cases hrun
  | ok c =>
    obtain ⟨-, -, -, -, -, -, -, -, -, -, hwf⟩ := compile_wellFormed hc
    exact ⟨c, rfl, hwf⟩

end EntityQuery
