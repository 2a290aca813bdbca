import EntityQuery.Error
import EntityQuery.Sql.Quote
import EntityQuery.Token.Basic
import EntityQuery.Query.Graph

/-!
# Binding names and paths

A `Binder` holds the graph while a query text is read, and resolves what the text names
against the schema. An alias is looked up in the current block and then in the enclosing
ones, ignoring ASCII case. A dotted path is followed field by field: a column gives a
`ColumnRef`, a to-one relationship a joined from-item, and a collection stays a
`CollectionRef` until a predicate uses it.

A to-one step from one item in one block is joined once: the binder remembers the item it
reached under the key (block, parent, field), and a second step of the same path reuses it.
Generated aliases are the prefix followed by a counter, and skip every name that the text
itself uses and every alias already given out. Parameters get one slot per distinct source,
and one text may not mix named and numbered parameters.

Operations that change the binder run in `Binding`, a state over the binder that may fail
with a `Reason`; a failing operation changes nothing that a later step could read, since
every check comes before the first change.
-/

namespace EntityQuery

/-- One resolved step of a path. -/
inductive Bound where
  | column (c : ColumnRef)
  | entity (f : FromId)
  | collection (c : CollectionRef)
  deriving DecidableEq, Repr, Inhabited

/-- A resolved step as an expression. -/
def Bound.toExpr : Bound → Expr
  | .column c => .column c
  | .entity f => .entityPath f
  | .collection c => .collectionPath c

/-- The key of a to-one step: the block, the item it starts from, and the field. -/
structure PathKey where
  query : QueryId
  parent : FromId
  field : String
  deriving DecidableEq, Repr

/-- The state of binding one query text. -/
structure Binder where
  schema : Schema
  aliasPrefix : String
  graph : Graph := {}
  /-- The item each to-one step reached first. -/
  paths : List (PathKey × FromId) := []
  /-- The counter of the next generated alias. -/
  nextAlias : Nat := 0
  /-- Lower-cased identifiers of the text, which generated aliases avoid. -/
  reserved : List String := []
  /-- Whether the parameters seen so far are named, once there is one. -/
  namedParameters : Option Bool := none

/-- A step of binding: it reads and changes the binder, or fails with a reason. -/
abbrev Binding := StateT Binder (Except Reason)

/-- The filter that keeps the rows of `e` in the table of item `f`, if `e` has a
discriminator. The value is written as an SQL string literal. -/
def discriminatorFilter (f : FromId) (e : Entity) : Option Expr :=
  e.discriminator.map fun d =>
    .binary .eq (Expr.col f d.column) (.literal (.string (Sql.quoteString d.value)))

namespace Binder

/-- A binder with an empty graph. -/
def ofSchema (schema : Schema) (aliasPrefix : String) : Binder :=
  { schema, aliasPrefix }

/-- The item named `name` in block `q` or the nearest enclosing block that has one. Each
block's parent was made before it, so the chain of parents is at most as long as the list of
blocks. -/
def lookupAlias (b : Binder) (q : QueryId) (name : String) : Option FromId :=
  go (b.graph.blocks.size + 1) q
where
  /-- Look in `q`, then follow at most `n - 1` parents. -/
  go : Nat → QueryId → Option FromId
    | 0, _ => none
    | n + 1, q =>
      match (b.graph.liveItems q).find? (asciiEqIgnoreCase ·.aliasName name) with
      | some i => some i.id
      | none =>
        match (b.graph.block q).parent with
        | some p => go n p
        | none => none

/-- The first item of block `q`, which unqualified field names start from. -/
def firstItem (b : Binder) (q : QueryId) : Option FromId :=
  (b.graph.block q).fromList.head?

/-- The identity columns of the entity bound to `f`. -/
def entityKeys (b : Binder) (f : FromId) : List ColumnRef :=
  (b.graph.item f).idColumns.map (ColumnRef.mk f)

/-- The generated alias with counter `n`. -/
def candidate (b : Binder) (n : Nat) : String :=
  b.aliasPrefix ++ toString n

/-- Whether a generated alias would clash with a name of the text or an alias given out. -/
def aliasTaken (b : Binder) (a : String) : Bool :=
  b.reserved.contains (a.map Char.toLower) || b.graph.items.any (asciiEqIgnoreCase ·.aliasName a)

/-- The first counter from `n` on whose alias is free, trying at most `fuel` counters.
Distinct counters give distinct aliases and each taken name blocks at most one of them, so
one more try than there are taken names always finds a free one. -/
def freeCounter (b : Binder) : Nat → Nat → Nat
  | 0, n => n
  | fuel + 1, n => if b.aliasTaken (b.candidate n) then b.freeCounter fuel (n + 1) else n

/-- The join that `nav = root` expresses, when `nav` was reached by a plain to-one step and
`root` is an unjoined item of block `q` of the same entity, other than `nav` and its parent. -/
def equalityJoin (b : Binder) (q : QueryId) (nav root : FromId) : Option Link :=
  let navItem := b.graph.item nav
  let rootItem := b.graph.item root
  match navItem.join with
  | none => none
  | some j =>
    if j.link.kind != .toOne || j.extra.isSome || navItem.fetch || rootItem.owner != q ||
        rootItem.join.isSome || rootItem.entityName != navItem.entityName ||
        j.link.parent == root || nav == root then none
    else some ⟨j.link.parent, root, j.link.pairs, .toOne⟩

/-- The join that the equality of two entity paths expresses, tried in both orders. -/
def joinForEquality (b : Binder) (q : QueryId) (left right : FromId) : Option Link :=
  match b.equalityJoin q left right with
  | some l => some l
  | none => b.equalityJoin q right left

/-- An expression used as one value: an entity stands for its single identity column. -/
def toScalar (b : Binder) : Expr → Except Reason Expr
  | .entityPath f =>
    match b.entityKeys f with
    | [k] => .ok (.column k)
    | _ => .error (.compositeIdentity (b.graph.item f).entityName)
  | .collectionPath c => .error (.collectionNotAllowed c.path)
  | .loadEntity _ => .error .objectOutsideSelect
  | e => .ok e

/-- The values an expression stands for: every identity column of an entity, the expression
itself otherwise. -/
def toValues (b : Binder) : Expr → Except Reason (List Expr)
  | .entityPath f => .ok ((b.entityKeys f).map .column)
  | e => (b.toScalar e).map ([·])

end Binder

namespace Binding

/-- Start a new block. -/
def newQuery (parent : Option QueryId) (body : Body) : Binding QueryId :=
  modifyGet fun b =>
    let id : QueryId := ⟨b.graph.blocks.size⟩
    (id, { b with graph := { b.graph with blocks := b.graph.blocks.push { id, parent, body } } })

/-- Keep generated aliases clear of `names`, compared in lower case. -/
def reserveAliases (names : List String) : Binding Unit :=
  modify fun b => { b with reserved := b.reserved ++ names.map (·.map Char.toLower) }

/-- A fresh alias. -/
def generateAlias : Binding String :=
  modifyGet fun b =>
    let n := b.freeCounter (b.reserved.length + b.graph.items.size + 1) b.nextAlias
    (b.candidate n, { b with nextAlias := n + 1 })

/-- The entity of a name, by `Schema.lookup?`. -/
def resolveEntity (name : String) : Binding Entity := do
  match (← get).schema.lookup? name with
  | some e => pure e
  | none => throw (.unknownEntity name)

/-- Fail if block `q` already has an item named `alias`. -/
def checkAliasFree (q : QueryId) (aliasName : String) : Binding Unit := do
  if ((← get).graph.liveItems q).any (asciiEqIgnoreCase ·.aliasName aliasName) then
    throw (.duplicateAlias aliasName)

/-- Add an item to the FROM list of `q`. -/
def pushItem (q : QueryId) (aliasName : String) (table : Table) (entity : Option Entity)
    (join : Option Join) (semantics : JoinSemantics) : Binding FromId :=
  modifyGet fun b =>
    let id : FromId := ⟨b.graph.items.size⟩
    let item : FromItem :=
      { id, aliasName, sqlName := aliasName, table, entity, owner := q, join, semantics, fetch := false }
    let g := { b.graph with items := b.graph.items.push item }
    (id, { b with graph := g.modifyBlock q fun blk => { blk with fromList := blk.fromList ++ [id] } })

/-- Declare an entity root such as `Order o`. The target of an UPDATE or DELETE is written
with its table's name. A discriminator becomes a filter of the block. -/
def declareRoot (q : QueryId) (entity : Entity) (aliasName : String) (bulk : Bool) :
    Binding FromId := do
  checkAliasFree q aliasName
  let id ← pushItem q aliasName entity.table (some entity) none .unknown
  if bulk then
    modify fun b => { b with graph := b.graph.modifyItem id fun i => { i with sqlName := entity.table.name } }
  match discriminatorFilter id entity with
  | some filter =>
    modify fun b => { b with graph := b.graph.modifyBlock q fun blk => { blk with filters := blk.filters ++ [filter] } }
  | none => pure ()
  pure id

/-- Add an item joined to `parent`; the target's discriminator filters the join. -/
def addJoined (q : QueryId) (aliasName : String) (entity : Option Entity) (table : Table)
    (parent : FromId) (pairs : List (String × String)) (kind : JoinKind)
    (semantics : JoinSemantics) : Binding FromId := do
  let target : FromId := ⟨(← get).graph.items.size⟩
  let extra := entity.bind (discriminatorFilter target)
  pushItem q aliasName table entity (some ⟨⟨parent, target, pairs, kind⟩, extra⟩) semantics

/-- The entity of item `f`, which a step to `field` starts from. -/
def itemEntity (f : FromId) (field : String) : Binding Entity := do
  let item := (← get).graph.item f
  match item.entity with
  | some e => pure e
  | none => throw (.notNavigable (item.aliasName ++ "." ++ field))

/-- How `field` of `e` is stored. -/
def fieldOf (e : Entity) (field : String) : Binding FieldKind :=
  match e.field? field with
  | some k => pure k
  | none => throw (.unknownField e.name field)

/-- Join the target of a to-one field. Without a declared alias an earlier join of the same
step is reused; the first join of a step is the one remembered. -/
def joinToOne (q : QueryId) (parent : FromId) (entity : Entity) (field target : String)
    (columns : List String) (semantics : JoinSemantics) (aliasName : Option String) :
    Binding FromId := do
  let key : PathKey := ⟨q, parent, field⟩
  if aliasName.isNone then
    if let some existing := (← get).paths.lookup key then
      return existing
  let targetEntity ← resolveEntity target
  let keys := targetEntity.idColumns
  if keys.isEmpty || keys.length != columns.length then
    throw (.schemaMismatch entity.name field)
  let aliasName ← match aliasName with
    | some a => pure a
    | none => generateAlias
  let id ← addJoined q aliasName (some targetEntity) targetEntity.table parent (columns.zip keys)
    .toOne semantics
  modify fun b =>
    if (b.paths.lookup key).isSome then b else { b with paths := b.paths ++ [(key, id)] }
  pure id

/-- The collection `field` of the entity `entity` bound to `parent`, read through a
correlated sub-query on its table. The table is recorded among the correlated tables. -/
def collection (parent : FromId) (entity : Entity) (field : String) (kind : FieldKind) :
    Binding CollectionRef := do
  let b ← get
  let ownerKeys := entity.idColumns.map (ColumnRef.mk parent)
  let path := (b.graph.item parent).aliasName ++ "." ++ field
  let (table, linkColumns, elementKeys, elementEntity) ← match kind with
    | .oneToMany target columns => do
      let t ← resolveEntity target
      pure (t.table, columns, t.idColumns, target)
    | .manyToMany target association sourceColumns targetColumns => do
      let _ ← resolveEntity target
      pure (association, sourceColumns, targetColumns, target)
    | _ => throw (.notNavigable path)
  if ownerKeys.isEmpty || ownerKeys.length != linkColumns.length then
    throw (.schemaMismatch entity.name field)
  modify fun b =>
    if b.graph.correlatedTables.contains table then b
    else { b with graph := { b.graph with correlatedTables := b.graph.correlatedTables ++ [table] } }
  let aliasName ← generateAlias
  pure { path, ownerKeys, table, aliasName, linkColumns, elementKeys, elementEntity }

/-- Follow `parent.field` inside an expression: a column, a joined to-one target, or an
unjoined collection. -/
def navigate (q : QueryId) (parent : FromId) (field : String) (semantics : JoinSemantics) :
    Binding Bound := do
  let entity ← itemEntity parent field
  match ← fieldOf entity field with
  | .column c => pure (.column ⟨parent, c⟩)
  | .manyToOne target columns =>
    Bound.entity <$> joinToOne q parent entity field target columns semantics none
  | kind => Bound.collection <$> collection parent entity field kind

/-- Declare the last step of a FROM path under `alias`. A collection gets an item of its own
here; a many-to-many collection gets two, the association table first. -/
def declarePath (q : QueryId) (parent : FromId) (field aliasName : String)
    (semantics : JoinSemantics) : Binding FromId := do
  checkAliasFree q aliasName
  let entity ← itemEntity parent field
  let ownerKeys := entity.idColumns
  match ← fieldOf entity field with
  | .column _ => throw (.notAnEntity (((← get).graph.item parent).aliasName ++ "." ++ field))
  | .manyToOne target columns =>
    joinToOne q parent entity field target columns semantics (some aliasName)
  | .oneToMany target columns =>
    let t ← resolveEntity target
    if ownerKeys.isEmpty || ownerKeys.length != columns.length then
      throw (.schemaMismatch entity.name field)
    addJoined q aliasName (some t) t.table parent (ownerKeys.zip columns) .toMany semantics
  | .manyToMany target association sourceColumns targetColumns =>
    let t ← resolveEntity target
    let targetKeys := t.idColumns
    if ownerKeys.isEmpty || ownerKeys.length != sourceColumns.length ||
        targetKeys.length != targetColumns.length then
      throw (.schemaMismatch entity.name field)
    let linkAlias ← generateAlias
    let linkItem ← addJoined q linkAlias none association parent (ownerKeys.zip sourceColumns)
      .toMany semantics
    addJoined q aliasName (some t) t.table linkItem (targetColumns.zip targetKeys) .toOne semantics

/-- The slot of a parameter, reusing the slot of an equal earlier one. -/
def argument (source : ArgSource) : Binding Nat := do
  let named := match source with
    | .named _ => true
    | .positional _ => false
  let b ← get
  if b.namedParameters.any (· != named) then throw .mixedParameters
  set { b with namedParameters := some named }
  match b.graph.arguments.findIdx? (·.source == source) with
  | some i => pure i
  | none =>
    modifyGet fun b =>
      (b.graph.arguments.size,
        { b with graph := { b.graph with arguments := b.graph.arguments.push { source } } })

/-- Mark item `f` as fetched by a `JOIN FETCH`. -/
def markFetch (f : FromId) : Binding Unit :=
  modify fun b => { b with graph := b.graph.modifyItem f fun i => { i with fetch := true } }

end Binding

end EntityQuery
