import EntityQuery.Proofs.Compiled.Markers
import EntityQuery.Proofs.Query.Parsed
import EntityQuery.Proofs.Query.Optimized
import EntityQuery.Proofs.Sql.Written

/-!
# The bindings of a compiled statement

A compiled statement carries its SQL text and, for each `?` marker of the text, the binding
of one parameter. `compile_binds_markers` says that the two agree whenever the options write
`TRUE` and `FALSE` as plain SQL text: the text is closed, its `?` markers stand exactly where
the writer put its marker pieces, the `k`-th marker binds the parameter its piece names with
ordinal `k + 1`, and each parameter lists the ordinals of its own markers in increasing
order, so that the ordinals are shared out among the parameters.

The proof follows the compiler: reading gives a sound graph (`ParsedQuery.sound_read`), the
optimizer keeps it sound (`Graph.Sound.optimize`), the writer writes a sound graph in sound
pieces (`Sql.placeholders_statement`), and binding numbers the markers as they come
(`Graph.bindMarkers_spec`).

The texts of `TRUE` and `FALSE` are copied from the options as they stand: with `?` as the
text of `TRUE`, the SQL has one marker more than there are bindings
(`true_literal_marker_unbound`).
-/

namespace EntityQuery

/-! ### The stages of a compilation -/

/-- A compilation that succeeds read the text and compiled what it read. -/
theorem compile_eq_ok {schema : Schema} {o : CompileOptions} {text : String}
    {q : CompiledQuery} (h : compile schema o text = .ok q) :
  ∃ p, ParsedQuery.read schema o.aliasPrefix text = .ok p ∧ CompiledQuery.ofParsed text p o = .ok q
  := by
  unfold compile at h
  cases hread : ParsedQuery.read schema o.aliasPrefix text with
  | error e =>
    rw [hread] at h
    cases h
  | ok p =>
    rw [hread] at h
    exact ⟨p, rfl, h⟩

namespace CompiledQuery

/-- A query compiled from a parsed statement is its optimized graph, written and then bound:
its SQL is the written text, its graph and bindings are those of binding the markers
written, and its parameters are the sources of the bound graph's arguments. -/
theorem ofParsed_eq_ok {source : String} {p : ParsedQuery} {o : CompileOptions}
    {q : CompiledQuery} (h : ofParsed source p o = .ok q) :
  ∃ g, p.graph.optimize = .ok g ∧
    q.sql = (Sql.statement g o p.root).sql ∧
    g.bindMarkers (Sql.statement g o p.root).markers = (q.graph, q.arguments) ∧
    q.parameters = q.graph.arguments.toList.map (·.source)
  := by
  unfold ofParsed at h
  cases hopt : p.graph.optimize with
  | error r =>
    rw [hopt] at h
    cases h
  | ok g =>
    rw [hopt] at h
    injection h with h
    subst h
    exact ⟨g, rfl, rfl, rfl, rfl⟩

/-! ### Markers and bindings -/

/-- The SQL text of `q` and its bindings agree. The text is that of the pieces `ps` the writer
gives for the statement's block of a graph that `q`'s graph is, its arguments apart. The text
is closed, its `?` markers stand at the offsets of the marker pieces, and there are as many of
them as bindings. With `ms` the parameters those pieces name, in text order, the `k`-th
binding is the source of parameter `ms[k]` with ordinal `k + 1`, and parameter `i` has the
ordinals of the markers naming it, in increasing order. -/
def MarkersBound (o : CompileOptions) (q : CompiledQuery) : Prop :=
  ∃ (g : Graph) (root : QueryId),
    let ps := Sql.query g o (g.blocks.size + 1) root false
    let ms := ps.filterMap Piece.argument?
    q.graph = { g with arguments := q.graph.arguments } ∧
    q.sql = SqlText.ofPieces ps ∧
    SqlText.placeholders q.sql = some (SqlText.markerOffsets 0 ps) ∧
    (SqlText.placeholders q.sql).map List.length = some q.arguments.length ∧
    q.arguments.length = ms.length ∧
    (∀ k (hk : k < ms.length), ∃ hi : ms[k] < q.parameters.length,
      q.arguments[k]? = some ⟨q.parameters[ms[k]], k + 1⟩) ∧
    ∀ i (hi : i < q.parameters.length),
      q.sqlOrdinals[i]? = some (((List.range ms.length).filter (ms[·]? == some i)).map (· + 1))

end CompiledQuery

/-- Every compiled query binds the markers of its text as they stand, when the options
write `TRUE` and `FALSE` as plain SQL text. -/
theorem compile_binds_markers {schema : Schema} {o : CompileOptions} {text : String}
    {q : CompiledQuery} (ho : o.PlainLiterals) (h : compile schema o text = .ok q) :
  q.MarkersBound o
  := by
  obtain ⟨p, hread, hq⟩ := compile_eq_ok h
  obtain ⟨g, hopt, hsql, hbind, hparams⟩ := CompiledQuery.ofParsed_eq_ok hq
  have hg : g.Sound := (ParsedQuery.sound_read hread).optimize hopt
  obtain ⟨hplace, -, hin⟩ := Sql.placeholders_statement hg ho p.root
  set ms := (Sql.query g o (g.blocks.size + 1) p.root false).filterMap Piece.argument?
  change ∀ i ∈ ms, i < g.arguments.size at hin
  change g.bindMarkers ms = (q.graph, q.arguments) at hbind
  obtain ⟨hgraph, hsize, hcount, hargs, hords⟩ := Graph.bindMarkers_spec g ms hin
  rw [hbind] at hgraph hsize hcount hargs hords
  have hparam : ∀ i (hi : i < g.arguments.size), q.parameters[i]? = some g.arguments[i].source ∧
      q.sqlOrdinals[i]? = some (((List.range ms.length).filter (ms[·]? == some i)).map (· + 1)) := by
    intro i hi
    have hunbound := hg.unbound _ (Array.getElem_mem hi)
    constructor
    · simp [hparams, Array.getElem?_toList, hords i hi]
    · simp [CompiledQuery.sqlOrdinals, Array.getElem?_toList, hords i hi, hunbound]
  have hlen : q.parameters.length = g.arguments.size := by simp [hparams, hsize]
  have hplace' := hsql ▸ hplace
  refine ⟨g, p.root, hgraph, hsql, hplace', ?_, hcount, ?_, ?_⟩
  · rw [hplace', Option.map_some, SqlText.length_markerOffsets, hcount]
  · intro k hk
    obtain ⟨hi, hk'⟩ := hargs k hk
    have hsource := (hparam _ hi).1
    rw [List.getElem?_eq_getElem (hlen ▸ hi)] at hsource
    refine ⟨hlen ▸ hi, ?_⟩
    rw [hk', Option.some_inj.mp hsource]
  · intro i hi
    exact (hparam i (hlen ▸ hi)).2

/-! ### A staff schema -/

/-- Employees with an identity and a name. -/
def Schema.staff : Schema :=
  Schema.withEntity {}
    ((Entity.named "Employee" { name := "employees" }).withId "id" "id" |>.withColumn "name" "name")

/-- A query of the staff schema with a parameter and a `TRUE`, compiled with the usual texts
of `TRUE` and `FALSE`, binds its markers. -/
theorem staff_query_binds_markers :
  ∃ q, compile Schema.staff {} "SELECT e FROM Employee e WHERE e.name = :n OR TRUE" = .ok q ∧
    q.MarkersBound {}
  := by
  have hrun : (compile Schema.staff {}
      "SELECT e FROM Employee e WHERE e.name = :n OR TRUE").isOk = true := by
    decide +kernel
  cases hc : compile Schema.staff {} "SELECT e FROM Employee e WHERE e.name = :n OR TRUE" with
  | error e =>
    rw [hc] at hrun
    cases hrun
  | ok q => exact ⟨q, rfl, compile_binds_markers (by decide) hc⟩

/-- With `?` as the text of `TRUE`, the same query compiles to SQL with two markers and one
binding: the text `WHERE (e.name = ? OR ?)` has a marker that binds nothing. -/
theorem true_literal_marker_unbound :
  ∃ q, compile Schema.staff { trueLiteral := "?" }
      "SELECT e FROM Employee e WHERE e.name = :n OR TRUE" = .ok q ∧
    SqlText.placeholders q.sql = some [53, 58] ∧ q.arguments = [⟨.named "n", 1⟩]
  := by
  have hrun : (compile Schema.staff { trueLiteral := "?" }
      "SELECT e FROM Employee e WHERE e.name = :n OR TRUE").toOption.map
      (fun q => (SqlText.quotingAfter .none q.sql.toList, SqlText.marks .none 0 q.sql.toList,
        q.arguments)) = some (.none, [53, 58], [⟨.named "n", 1⟩]) := by
    decide +kernel
  cases hc : compile Schema.staff { trueLiteral := "?" }
      "SELECT e FROM Employee e WHERE e.name = :n OR TRUE" with
  | error e =>
    rw [hc] at hrun
    cases hrun
  | ok q =>
    rw [hc] at hrun
    simp only [Except.toOption, Option.map_some, Option.some.injEq, Prod.mk.injEq] at hrun
    obtain ⟨hclosed, hmarks, hargs⟩ := hrun
    exact ⟨q, rfl, by rw [SqlText.placeholders_eq, hclosed, if_pos rfl, hmarks], hargs⟩

end EntityQuery
