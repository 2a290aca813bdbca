import EntityQuery.Proofs.Compiled.Bindings
import EntityQuery.Proofs.Query.TextOrder

/-!
# The order of the parameters

A compiled statement lists its distinct parameters by their sources; each `?` of its SQL binds
one of them. `compile_parameters_textOrder` says which list it is: the distinct parameters of
the text, in the order of their first occurrence, whenever the text opens with the keyword of
a statement (`OpensStatement`).

Each stage of the compiler keeps that list. Reading registers a parameter when it first takes
it, and takes the tokens of every block in the order of the text, although it reads a select
list after the FROM clause that follows it (`ParsedQuery.sources_read`). The optimizer keeps
the parameters (`Graph.arguments_optimize`), and binding the markers gives each parameter its
ordinals and keeps its source (`Graph.sources_bindMarkers`).

The keyword matters. A SELECT may leave out its select list and start at FROM, so a text that
opens with another word has its words up to FROM skipped, parameters and all
(`misspelt_select_skips_parameter`).
-/

namespace EntityQuery

namespace Graph

/-- Binding markers gives the parameters their ordinals and keeps their sources. -/
theorem sources_bindMarkers (g : Graph) (markers : List Nat) :
  (g.bindMarkers markers).1.arguments.toList.map (·.source) = g.arguments.toList.map (·.source)
  := by
  obtain ⟨-, -, hsrc, -, -⟩ := foldl_bindStep ((List.range markers.length).zip markers) g []
  rw [bindMarkers_eq]
  apply List.ext_getElem?
  intro i
  simp only [List.getElem?_map, Array.getElem?_toList]
  exact hsrc i

end Graph

/-- The parameters of a statement compiled from a text that opens with the keyword of a
statement are the distinct parameters of the text, in the order of their first occurrence. -/
theorem compile_parameters_textOrder {schema : Schema} {o : CompileOptions} {text : String}
    {c : CompiledQuery} (h : compile schema o text = .ok c) (hopens : OpensStatement text) :
  c.parameters = (textParameters text).eraseDups
  := by
  obtain ⟨p, hread, hc⟩ := compile_eq_ok h
  obtain ⟨g, hopt, -, hbind, hparams⟩ := CompiledQuery.ofParsed_eq_ok hc
  calc c.parameters
      = c.graph.arguments.toList.map (·.source) := hparams
    _ = g.arguments.toList.map (·.source) := by
      rw [← Graph.sources_bindMarkers g (Sql.statement g o p.root).markers, hbind]
    _ = p.graph.arguments.toList.map (·.source) := by
      rw [Graph.arguments_optimize hopt]
    _ = (textParameters text).eraseDups := ParsedQuery.sources_read hread hopens

/-- A query of the staff schema that names `:b` in its select list and `:a` and `:b` after it
compiles with the parameters `:b` and `:a`, in that order. -/
theorem staff_parameters_textOrder :
  ∃ c, compile Schema.staff {}
      "SELECT e.name, :b FROM Employee e WHERE e.id = :a AND e.name = :b" = .ok c ∧
    c.parameters = [.named "b", .named "a"]
  := by
  have hrun : (compile Schema.staff {}
      "SELECT e.name, :b FROM Employee e WHERE e.id = :a AND e.name = :b").isOk = true := by
    decide +kernel
  cases hc : compile Schema.staff {}
      "SELECT e.name, :b FROM Employee e WHERE e.id = :a AND e.name = :b" with
  | error e =>
    rw [hc] at hrun
    cases hrun
  | ok c =>
    refine ⟨c, rfl, ?_⟩
    rw [compile_parameters_textOrder hc (by decide +kernel)]
    decide +kernel

/-- A text that opens with `SELCT` in place of `SELECT` compiles as a SELECT without select
list: the words before FROM are skipped, and of the parameters `:rate` and `:id` of the text
only `:id` is left. -/
theorem misspelt_select_skips_parameter :
  (compile Schema.staff {}
      "SELCT e.salary * :rate FROM Employee e WHERE e.id = :id").toOption.map (·.parameters) =
    some [.named "id"] ∧
  (textParameters "SELCT e.salary * :rate FROM Employee e WHERE e.id = :id").eraseDups =
    [.named "rate", .named "id"]
  := by
  constructor <;> decide +kernel

end EntityQuery
