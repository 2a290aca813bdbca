import EntityQuery.Query.Grammar
import EntityQuery.Query.Optimize
import EntityQuery.Sql.Writer

/-!
# Compiled queries

`compile` reads a query text against a schema, optimizes its graph and writes its SQL. The
`CompiledQuery` holds the SQL and what a caller needs to run it: for each `?` marker in text
order the parameter it binds, the distinct parameters in the order they were first read, the
shortest cache timeout and whether every table is read-only, and the shape of the result
rows.

The tables counted for caching are those of every FROM list of every block after
optimization, and those of the correlated sub-queries of collections; with no table the
timeout is the default one. The result of an UPDATE or DELETE has an empty shape.
-/

namespace EntityQuery

/-- The kind of a statement. -/
inductive StatementKind where
  | select | update | delete
  deriving DecidableEq, Repr, Inhabited

/-- The word for a statement kind in lower case. -/
def StatementKind.name : StatementKind → String
  | .select => "select"
  | .update => "update"
  | .delete => "delete"

/-- The word for a statement kind, capitalized. -/
def StatementKind.title : StatementKind → String
  | .select => "Select"
  | .update => "Update"
  | .delete => "Delete"

/-- The parameter a `?` marker binds, and the marker's 1-based position in the SQL text. -/
structure ArgBinding where
  source : ArgSource
  sqlOrdinal : Nat
  deriving DecidableEq, Repr

/-- One group of result columns. -/
inductive ResultItem where
  /-- A single value. -/
  | scalar
  /-- A whole entity, read from these columns in this order. -/
  | entity (name : String) (columns : List String)
  deriving DecidableEq, Repr

/-- A relationship loaded by `JOIN FETCH`, whose columns follow the result columns. -/
structure FetchShape where
  /-- The alias of the result entity the relationship belongs to. -/
  owner : String
  path : String
  entity : String
  columns : List String
  deriving DecidableEq, Repr

/-- The shape of the result rows. -/
structure ResultShape where
  items : List ResultItem := []
  /-- The class named by a constructor expression. -/
  constructor : Option String := none
  fetches : List FetchShape := []
  distinct : Bool := false
  deriving DecidableEq, Repr

/-- A compiled statement. -/
structure CompiledQuery where
  source : String
  kind : StatementKind
  sql : String
  arguments : List ArgBinding
  parameters : List ArgSource
  /-- The shortest cache timeout of the tables read, in milliseconds. -/
  cacheMaxAge : Nat
  tablesReadOnly : Bool
  resultShape : ResultShape
  /-- The optimized graph, whose arguments list their SQL ordinals. -/
  graph : Graph

namespace Graph

/-- Every table the statement reads: the FROM lists of all blocks, then the tables of the
correlated sub-queries of collections. -/
def tablesRead (g : Graph) : List Table :=
  g.blocks.toList.flatMap (fun b => b.fromList.map fun f => (g.item f).table) ++ g.correlatedTables

/-- The shortest cache timeout of the tables read, the default with none, and whether all of
them are read-only. -/
def cacheFacts (g : Graph) : Nat × Bool :=
  let tables := g.tablesRead
  let age := match tables.map (·.cacheTimeout) with
    | [] => Table.defaultCacheTimeout
    | t :: ts => ts.foldl min t
  (age, tables.all (·.readOnly))

/-- The columns an item's entity is loaded from; none for an association table. -/
def loadColumnsOf (g : Graph) (f : FromId) : List String :=
  match (g.item f).entity with
  | some e => e.loadColumns
  | none => []

/-- The shape of the rows of the statement `root`. -/
def resultShape (g : Graph) (root : QueryId) : ResultShape :=
  match (g.block root).body with
  | .select s =>
    { items := s.results.map fun r => match r with
        | .loadEntity f => .entity (g.item f).entityName (g.loadColumnsOf f)
        | _ => .scalar
      constructor := s.constructor
      fetches := s.fetches.map fun fetch =>
        { owner := (g.item fetch.owner).aliasName, path := fetch.path,
          entity := (g.item fetch.target).entityName, columns := g.loadColumnsOf fetch.target }
      distinct := s.distinct }
  | _ => {}

/-- The kind of the statement `root`. -/
def statementKind (g : Graph) (root : QueryId) : StatementKind :=
  match (g.block root).body with
  | .select _ => .select
  | .update .. => .update
  | .delete _ => .delete

/-- Record the SQL ordinals of the markers, each binding the argument of its index: the
bindings in text order, and the arguments with the ordinals that bind them. A marker of no
argument binds nothing. -/
def bindMarkers (g : Graph) (markers : List Nat) : Graph × List ArgBinding :=
  ((List.range markers.length).zip markers).foldl (fun (acc : Graph × List ArgBinding) (position, index) =>
    let (g, bindings) := acc
    let ordinal := position + 1
    match g.arguments[index]? with
    | some arg =>
      ({ g with arguments := g.arguments.set! index { arg with sqlOrdinals := arg.sqlOrdinals ++ [ordinal] } },
        bindings ++ [{ source := arg.source, sqlOrdinal := ordinal }])
    | none => (g, bindings)) (g, [])

end Graph

namespace CompiledQuery

/-- Optimize and write a statement read from `source`. A failure of the optimizer has no
token or position. -/
def ofParsed (source : String) (p : ParsedQuery) (o : CompileOptions) :
    Except CompileError CompiledQuery := do
  let g ← match p.graph.optimize with
    | .ok g => pure g
    | .error r => throw { reason := r, query := source }
  let emitted := Sql.statement g o p.root
  let (g, arguments) := g.bindMarkers emitted.markers
  let (cacheMaxAge, tablesReadOnly) := g.cacheFacts
  pure { source, kind := g.statementKind p.root, sql := emitted.sql, arguments,
         parameters := g.arguments.toList.map (·.source), cacheMaxAge, tablesReadOnly,
         resultShape := g.resultShape p.root, graph := g }

/-- For each distinct parameter, the SQL ordinals of the markers that bind it. -/
def sqlOrdinals (c : CompiledQuery) : List (List Nat) :=
  c.graph.arguments.toList.map (·.sqlOrdinals)

end CompiledQuery

/-- Compile a query text against a schema. -/
def compile (schema : Schema) (o : CompileOptions) (text : String) :
    Except CompileError CompiledQuery := do
  let parsed ← ParsedQuery.read schema o.aliasPrefix text
  CompiledQuery.ofParsed text parsed o

end EntityQuery
