import EntityQuery.Query.Expr

/-!
# The query graph

Compiling one query text builds one `Graph`: every from-item of every query block lives in
one array and is named by its `FromId`, so a correlated sub-query refers to an item of an
enclosing block directly. Each `Block` is the statement itself or a nested sub-query, with its
FROM list, the filters the compiler adds (discriminators, tests left by removed joins) and the
statement's own parts. The graph also lists the distinct parameters in first-use order and the
tables that correlated collection sub-queries read.

Look-ups by index are total: an index out of range reads a blank item or block. The graph
that parsing builds only holds indices in range, so the blank is never read there.

`Graph.touches` says whether an expression refers to a from-item at all, apart from some
columns; nested sub-queries count. Its depth of sub-queries is bounded by the number of
blocks, since a sub-query is always created after the block that holds it.
-/

namespace EntityQuery

/-- Whether a joined from-item keeps the rows of its parent that it cannot match. -/
inductive JoinSemantics where
  /-- Not declared; decided by the optimizer. -/
  | unknown
  | inner
  | outer
  deriving DecidableEq, Repr, Inhabited

/-- The join of a from-item to the item it was reached from, with a filter on the target. -/
structure Join where
  link : Link
  extra : Option Expr
  deriving Inhabited

/-- The join's equality predicate, its filter included. -/
def Join.predicate (j : Join) : Expr := j.link.predicate j.extra

/-- One table reference in a FROM list. -/
structure FromItem where
  id : FromId
  /-- The name the query text uses for the item, declared or generated. -/
  aliasName : String
  /-- The qualifier written in SQL: the alias, or the table name for the target of an
  UPDATE or DELETE. -/
  sqlName : String
  table : Table
  /-- The entity of the item; none for the association table of a many-to-many field. -/
  entity : Option Entity
  owner : QueryId
  join : Option Join
  semantics : JoinSemantics
  fetch : Bool
  deriving Inhabited

namespace FromItem

/-- The entity's name, or the table's name for an association table. -/
def entityName (i : FromItem) : String :=
  match i.entity with
  | some e => e.name
  | none => i.table.name

/-- The identity columns of the item's entity. -/
def idColumns (i : FromItem) : List String :=
  match i.entity with
  | some e => e.idColumns
  | none => []

/-- Whether the item is joined with outer semantics. -/
def isOuter (i : FromItem) : Bool :=
  i.join.isSome && i.semantics == .outer

end FromItem

/-- An ORDER BY term. -/
structure OrderTerm where
  expr : Expr
  descending : Bool
  deriving Inhabited

/-- A `JOIN FETCH` declaration: the item the fetched relationship belongs to, the fetched
item, and the path as written. -/
structure FetchJoin where
  owner : FromId
  target : FromId
  path : String
  deriving Inhabited

/-- The parts of a SELECT block. -/
structure SelectBody where
  distinct : Bool := false
  results : List Expr := []
  /-- The class named by a constructor expression. -/
  constructor : Option String := none
  hasFrom : Bool := false
  whereClause : Option Expr := none
  groupBy : List Expr := []
  having : Option Expr := none
  orderBy : List OrderTerm := []
  fetches : List FetchJoin := []
  deriving Inhabited

/-- One `SET` assignment: the field, its columns and the value. -/
structure Assignment where
  field : String
  columns : List String
  value : Expr
  deriving Inhabited

/-- The statement-specific parts of a block. -/
inductive Body where
  | select (s : SelectBody)
  | update (assignments : List Assignment) (whereClause : Option Expr)
  | delete (whereClause : Option Expr)
  deriving Inhabited

namespace Body

/-- The WHERE condition of a body. -/
def whereClause : Body → Option Expr
  | .select s => s.whereClause
  | .update _ w => w
  | .delete w => w

/-- The body with another WHERE condition. -/
def withWhere (b : Body) (w : Option Expr) : Body :=
  match b with
  | .select s => .select { s with whereClause := w }
  | .update a _ => .update a w
  | .delete _ => .delete w

/-- Whether the body is a SELECT. -/
def isSelect : Body → Bool
  | .select _ => true
  | _ => false

/-- Every expression of the body, in the order results, WHERE, GROUP BY, HAVING, ORDER BY
for a SELECT and values, WHERE for an UPDATE. -/
def expressions : Body → List Expr
  | .select s =>
    s.results ++ s.whereClause.toList ++ s.groupBy ++ s.having.toList ++ s.orderBy.map (·.expr)
  | .update a w => a.map (·.value) ++ w.toList
  | .delete w => w.toList

/-- Apply `g` to every expression of the body. -/
def mapExprs (g : Expr → Expr) : Body → Body
  | .select s => .select { s with
      results := s.results.map g, whereClause := s.whereClause.map g,
      groupBy := s.groupBy.map g, having := s.having.map g,
      orderBy := s.orderBy.map fun t => { t with expr := g t.expr } }
  | .update a w => .update (a.map fun x => { x with value := g x.value }) (w.map g)
  | .delete w => .delete (w.map g)

end Body

/-- One query block: its FROM list, the filters the compiler adds, and its body. -/
structure Block where
  id : QueryId
  parent : Option QueryId
  fromList : List FromId := []
  filters : List Expr := []
  body : Body
  deriving Inhabited

namespace Block

/-- Every expression of the block, join predicates aside: filters first, then the body's. -/
def expressions (b : Block) : List Expr := b.filters ++ b.body.expressions

/-- Apply `g` to every expression of the block. -/
def mapExprs (g : Expr → Expr) (b : Block) : Block :=
  { b with filters := b.filters.map g, body := b.body.mapExprs g }

end Block

/-- A distinct parameter and the ordinals of the SQL markers that bind it. -/
structure Argument where
  source : ArgSource
  sqlOrdinals : List Nat := []
  deriving DecidableEq, Repr, Inhabited

/-- Everything built while compiling one query text. -/
structure Graph where
  items : Array FromItem := #[]
  blocks : Array Block := #[]
  arguments : Array Argument := #[]
  /-- Tables read by correlated collection sub-queries, each once. -/
  correlatedTables : List Table := []
  deriving Inhabited

namespace Graph

/-- The from-item `f`; a blank item when `f` is out of range. -/
def item (g : Graph) (f : FromId) : FromItem := g.items[f.idx]?.getD default

/-- The block `q`; a blank block when `q` is out of range. -/
def block (g : Graph) (q : QueryId) : Block := g.blocks[q.idx]?.getD default

/-- Change the from-item `f`. -/
def modifyItem (g : Graph) (f : FromId) (h : FromItem → FromItem) : Graph :=
  { g with items := g.items.modify f.idx h }

/-- Change the block `q`. -/
def modifyBlock (g : Graph) (q : QueryId) (h : Block → Block) : Graph :=
  { g with blocks := g.blocks.modify q.idx h }

/-- The items of the FROM list of `q`. -/
def liveItems (g : Graph) (q : QueryId) : List FromItem :=
  (g.block q).fromList.map g.item

/-- The block `q` and every block nested in it, found level by level, with one round per block. -/
def subtree (g : Graph) (q : QueryId) : List QueryId :=
  go g.blocks.size [q] [q]
where
  /-- The blocks `found` so far, and the `frontier` whose children are still to be added. -/
  go : Nat → List QueryId → List QueryId → List QueryId
    | 0, found, _ => found
    | _ + 1, found, [] => found
    | n + 1, found, current :: frontier =>
      let children := (g.blocks.toList.filter (·.parent == some current)).map (·.id)
      go n (found ++ children) (frontier ++ children)

/-- Whether a link refers to `f` through a column other than the `ignoring` ones. -/
def linkTouches (f : FromId) (ignoring : List String) (l : Link) : Bool :=
  (l.parent == f && l.parentColumns.any (fun c => !ignoring.contains c)) ||
    (l.target == f && l.targetColumns.any (fun c => !ignoring.contains c))

mutual

/-- Whether `e` refers to the from-item `f` other than through the `ignoring` columns, where
`sub q` says whether the sub-query `q` does. -/
def touchesWith (f : FromId) (ignoring : List String) (sub : QueryId → Bool) : Expr → Bool
  | .column c => c.source == f && !ignoring.contains c.column
  | .entityPath s => s == f
  | .loadEntity s => s == f
  | .collectionPath c => c.ownerKeys.any (fun k => k.source == f && !ignoring.contains k.column)
  | .isEmpty c _ => c.ownerKeys.any (fun k => k.source == f && !ignoring.contains k.column)
  | .memberOf item c _ =>
    c.ownerKeys.any (fun k => k.source == f && !ignoring.contains k.column) ||
      touchesAny f ignoring sub item
  | .size c => c.ownerKeys.any (fun k => k.source == f && !ignoring.contains k.column)
  | .join l (some x) => linkTouches f ignoring l || touchesWith f ignoring sub x
  | .join l none => linkTouches f ignoring l
  | .subSelect q => sub q
  | .exists q => sub q
  | .quantified _ q => sub q
  | .unary _ e => touchesWith f ignoring sub e
  | .binary _ l r => touchesWith f ignoring sub l || touchesWith f ignoring sub r
  | .concat l r => touchesWith f ignoring sub l || touchesWith f ignoring sub r
  | .between e lo hi _ =>
    touchesWith f ignoring sub e || touchesWith f ignoring sub lo ||
      touchesWith f ignoring sub hi
  | .like e p _ _ => touchesWith f ignoring sub e || touchesWith f ignoring sub p
  | .inList e vs _ => touchesWith f ignoring sub e || touchesAny f ignoring sub vs
  | .isNull e _ => touchesWith f ignoring sub e
  | .call _ args _ => touchesAny f ignoring sub args
  | .trim _ (some c) s => touchesWith f ignoring sub c || touchesWith f ignoring sub s
  | .trim _ none s => touchesWith f ignoring sub s
  | .position n h => touchesWith f ignoring sub n || touchesWith f ignoring sub h
  | .caseWhen c t o =>
    touchesWith f ignoring sub c || touchesWith f ignoring sub t || touchesWith f ignoring sub o
  | .conj parts => touchesAny f ignoring sub parts
  | .disj parts => touchesAny f ignoring sub parts
  | _ => false

/-- Whether some expression of the list refers to `f` other than through the `ignoring`
columns. -/
def touchesAny (f : FromId) (ignoring : List String) (sub : QueryId → Bool) : List Expr → Bool
  | [] => false
  | e :: es => touchesWith f ignoring sub e || touchesAny f ignoring sub es

end

/-- Whether the block `q` or a block nested in it refers to `f` other than through the
`ignoring` columns and the join of the item `skip`; `depth` bounds the nesting of sub-queries
that is followed. -/
def blockTouches (g : Graph) (depth : Nat) (q : QueryId) (f : FromId) (ignoring : List String)
    (skip : Option FromId) : Bool :=
  match depth with
  | 0 => false
  | d + 1 =>
    let b := g.block q
    let touches := touchesWith f ignoring fun q => g.blockTouches d q f ignoring none
    (b.expressions.map touches).any id ||
      (b.fromList.map fun i =>
        let item := g.item i
        if skip == some i then false
        else match item.join with
          | some j =>
            linkTouches f ignoring j.link ||
              (match j.extra with
                | some x => touches x
                | none => false)
          | none => false).any id

/-- Whether `e` refers to the from-item `f` other than through the `ignoring` columns,
sub-queries included; `depth` bounds the nesting of sub-queries that is followed. -/
def touches (g : Graph) (depth : Nat) (f : FromId) (ignoring : List String) (e : Expr) : Bool :=
  touchesWith f ignoring (fun q => g.blockTouches depth q f ignoring none) e

/-- Whether the block `q` or a block nested in it refers to `f` other than through the
`ignoring` columns and the join of `skip`, following every level of nesting. -/
def queryTouchesExcept (g : Graph) (q : QueryId) (f : FromId) (ignoring : List String)
    (skip : Option FromId) : Bool :=
  g.blockTouches (g.blocks.size + 1) q f ignoring skip

/-- Whether `e` refers to `f` at all, sub-queries included. -/
def uses (g : Graph) (f : FromId) (e : Expr) : Bool :=
  g.touches (g.blocks.size + 1) f [] e

end Graph

end EntityQuery
