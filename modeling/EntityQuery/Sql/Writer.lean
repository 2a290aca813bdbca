import EntityQuery.Options
import EntityQuery.Sql.Quote
import EntityQuery.Query.Graph

/-!
# Writing SQL

`Sql.statement` writes the SQL of an optimized graph, from the statement's block down into
its sub-queries. The text is built as a list of `Piece`s: plain text, and the parameter
markers `?` with the argument each binds, so that the markers are numbered in the order of
the final text and not in the order the parameters were read.

A SELECT writes its select list (an entity loaded whole by all its columns at the top level,
by its identity inside a sub-query), the fetched entities, the FROM list with its outer joins,
and one WHERE of the inner join predicates in FROM order, the block's filters and its own
condition. A predicate that stands as an operand is put in parentheses, a disjunction apart,
which always has its own. Identifiers are quoted by `Sql.quoteIdentifier`.

An expression is written by `Sql.exprWith`, given the SQL of the sub-queries it names, and a
block by `Sql.query`, which writes its sub-queries one level of depth down; each recursion is
then on its own argument, so the writer also runs in the kernel.
-/

namespace EntityQuery

/-- A piece of SQL text: plain text, or a `?` marker binding the argument of an index. -/
inductive Piece where
  | text (s : String)
  | marker (index : Nat)
  deriving DecidableEq, Repr

/-- The text of a piece. -/
def Piece.render : Piece → String
  | .text s => s
  | .marker _ => "?"

/-- The argument a piece binds, if it is a marker. -/
def Piece.argument? : Piece → Option Nat
  | .text _ => none
  | .marker i => some i

/-- The SQL of a statement, and for each `?` in order the index of the argument it binds. -/
structure Emitted where
  sql : String
  markers : List Nat
  deriving DecidableEq, Repr

namespace Sql

/-- Plain text. -/
def text (s : String) : List Piece := [.text s]

/-- Pieces in parentheses. -/
def paren (ps : List Piece) : List Piece := text "(" ++ ps ++ text ")"

/-- Groups of pieces with `sep` between them. -/
def sepBy (sep : String) : List (List Piece) → List Piece
  | [] => []
  | p :: ps => p ++ ps.flatMap (text sep ++ ·)

/-- A column qualified by the SQL name of its item. -/
def column (g : Graph) (c : ColumnRef) : String :=
  quoteIdentifier (g.item c.source).sqlName ++ "." ++ quoteIdentifier c.column

/-- The columns of item `f`: every column of its entity when `load`, else its identity. -/
def columns (g : Graph) (f : FromId) (load : Bool) : String :=
  let item := g.item f
  let cs := match item.entity, load with
    | some e, true => e.loadColumns
    | _, _ => item.idColumns
  ", ".intercalate (cs.map fun c => column g ⟨f, c⟩)

/-- A literal: numbers in decimal, strings as written, truth values as the options say. -/
def literal (o : CompileOptions) : Literal → String
  | .integer n => toString n
  | .long n => toString n
  | .double d => d.render
  | .string s => s
  | .boolean true => o.trueLiteral
  | .boolean false => o.falseLiteral

/-- The pieces `ps` of `e` as an operand: in parentheses if `e` is a predicate other than a
disjunction. -/
def operand (e : Expr) (ps : List Piece) : List Piece :=
  match e with
  | .disj _ => ps
  | _ => if e.isPredicate then paren ps else ps

/-- The pieces `ps` of `e` as a part of a disjunction: in parentheses if `e` is a conjunction. -/
def disjunct (e : Expr) (ps : List Piece) : List Piece :=
  match e with
  | .conj _ => paren ps
  | _ => ps

/-- Whether a negated operand needs no parentheses. -/
def isSimple : Expr → Bool
  | .column _ | .literal _ | .argument _ => true
  | _ => false

/-- The FROM and WHERE of the correlated sub-query of a collection: its table under its alias,
the link columns equal to the owner's identity. -/
def collectionSource (g : Graph) (c : CollectionRef) : String :=
  let aliasName := quoteIdentifier c.aliasName
  " FROM " ++ quoteIdentifier c.table.name ++ " " ++ aliasName ++ " WHERE " ++
    " AND ".intercalate ((c.linkColumns.zip c.ownerKeys).map fun (l, k) =>
      aliasName ++ "." ++ quoteIdentifier l ++ " = " ++ column g k)

/-- The equalities of a link's column pairs. -/
def linkEqualities (g : Graph) (l : Link) : List (List Piece) :=
  l.pairs.map fun (p, t) => text (column g ⟨l.parent, p⟩ ++ " = " ++ column g ⟨l.target, t⟩)

/-- The item's table with its SQL name. -/
def tableRef (i : FromItem) : String :=
  quoteIdentifier i.table.name ++ " " ++ quoteIdentifier i.sqlName

/-- The items of a FROM list with their positions. -/
def numbered (fs : List FromId) : List (Nat × FromId) :=
  (List.range fs.length).zip fs

/-- The join predicates a block writes in its WHERE clause, in FROM order: those of the first
item and of the items not written with `LEFT OUTER JOIN`. -/
def whereJoins (g : Graph) (b : Block) : List Expr :=
  (numbered b.fromList).filterMap fun (i, f) =>
    let item := g.item f
    match item.join with
    | some j => if i == 0 || !item.isOuter then some j.predicate else none
    | none => none

mutual

/-- The SQL of an expression, where `sub q` is the SQL of the sub-query `q`. -/
def exprWith (g : Graph) (o : CompileOptions) (sub : QueryId → List Piece) : Expr → List Piece
  | .literal l => text (literal o l)
  | .null => text "NULL"
  | .argument i => [.marker i]
  | .column c => text (column g c)
  | .entityPath f => text (columns g f false)
  | .loadEntity f => text (columns g f false)
  | .collectionPath c => text (", ".intercalate (c.ownerKeys.map (column g)))
  | .unary .not e => text "NOT (" ++ exprWith g o sub e ++ text ")"
  | .unary .neg e =>
    text "-" ++ (if isSimple e then exprWith g o sub e else paren (exprWith g o sub e))
  | .unary .plus e => exprWith g o sub e
  | .binary op l r =>
    let body := operand l (exprWith g o sub l) ++ text (" " ++ op.sql ++ " ") ++
      operand r (exprWith g o sub r)
    if op.isComparison then body else paren body
  | .concat l r =>
    paren (operand l (exprWith g o sub l) ++ text " || " ++ operand r (exprWith g o sub r))
  | .between e lo hi negated =>
    operand e (exprWith g o sub e) ++ text (if negated then " NOT BETWEEN " else " BETWEEN ") ++
      operand lo (exprWith g o sub lo) ++ text " AND " ++ operand hi (exprWith g o sub hi)
  | .like e p escape negated =>
    operand e (exprWith g o sub e) ++ text (if negated then " NOT LIKE " else " LIKE ") ++
      operand p (exprWith g o sub p) ++
      (match escape with
        | some s => text (" ESCAPE " ++ s)
        | none => [])
  | .inList e [.subSelect q] negated =>
    operand e (exprWith g o sub e) ++ text (if negated then " NOT IN " else " IN ") ++
      paren (sub q)
  | .inList e vs negated =>
    operand e (exprWith g o sub e) ++ text (if negated then " NOT IN " else " IN ") ++
      paren (sepBy ", " (exprsWith g o sub vs))
  | .isNull e negated =>
    operand e (exprWith g o sub e) ++ text (if negated then " IS NOT NULL" else " IS NULL")
  | .isEmpty c negated =>
    text ((if negated then "EXISTS (SELECT 1" else "NOT EXISTS (SELECT 1") ++
      collectionSource g c ++ ")")
  | .memberOf item c negated =>
    let aliasName := quoteIdentifier c.aliasName
    text ((if negated then "NOT EXISTS (SELECT 1" else "EXISTS (SELECT 1") ++ collectionSource g c) ++
      (c.elementKeys.zip (List.zipWith operand item (exprsWith g o sub item))).flatMap
        (fun (k, pv) => text (" AND " ++ aliasName ++ "." ++ quoteIdentifier k ++ " = ") ++ pv) ++
      text ")"
  | .size c => text ("(SELECT COUNT(*)" ++ collectionSource g c ++ ")")
  | .call name args distinct =>
    text (name ++ "(" ++ (if distinct then "DISTINCT " else "") ++
        (if args.isEmpty && name == "COUNT" then "*" else "")) ++
      sepBy ", " (exprsWith g o sub args) ++ text ")"
  | .trim spec (some c) s =>
    text "TRIM(" ++
      (match spec with
        | some sp => text (sp.sql ++ " ")
        | none => []) ++
      exprWith g o sub c ++ text " FROM " ++ exprWith g o sub s ++ text ")"
  | .trim spec none s =>
    text "TRIM(" ++
      (match spec with
        | some sp => text (sp.sql ++ " FROM ")
        | none => []) ++
      exprWith g o sub s ++ text ")"
  | .position n h =>
    text "POSITION(" ++ operand n (exprWith g o sub n) ++ text " IN " ++
      operand h (exprWith g o sub h) ++ text ")"
  | .caseWhen c t e =>
    text "CASE WHEN " ++ exprWith g o sub c ++ text " THEN " ++ exprWith g o sub t ++
      text " ELSE " ++ exprWith g o sub e ++ text " END"
  | .dateTime f => text f.sql
  | .conj parts => sepBy " AND " (exprsWith g o sub parts)
  | .disj parts => paren (sepBy " OR " (List.zipWith disjunct parts (exprsWith g o sub parts)))
  | .subSelect q => paren (sub q)
  | .exists q => text "EXISTS " ++ paren (sub q)
  | .quantified qt q => text (qt.sql ++ " ") ++ paren (sub q)
  | .join l (some x) => sepBy " AND " (linkEqualities g l ++ [exprWith g o sub x])
  | .join l none => sepBy " AND " (linkEqualities g l)

/-- The SQL of each expression of a list. -/
def exprsWith (g : Graph) (o : CompileOptions) (sub : QueryId → List Piece) :
    List Expr → List (List Piece)
  | [] => []
  | e :: es => exprWith g o sub e :: exprsWith g o sub es

end

/-- The SQL of block `q`, a sub-query when `nested`; `depth` bounds the nesting of the
sub-queries written. -/
def query (g : Graph) (o : CompileOptions) (depth : Nat) (q : QueryId) (nested : Bool) :
    List Piece :=
  match depth with
  | 0 => []
  | d + 1 =>
    let write := exprWith g o fun q => query g o d q true
    let b := g.block q
    let joins := whereJoins g b
    let whereSql (condition : Option Expr) : List Piece :=
      let parts := joins ++ b.filters ++ condition.toList
      if parts.isEmpty then [] else text " WHERE " ++ sepBy " AND " (parts.map write)
    let bulkTarget := match b.fromList.head? with
      | some f => quoteIdentifier (g.item f).table.name
      | none => ""
    match b.body with
    | .select s =>
      let results := s.results.map fun r =>
        match r with
        | .loadEntity f => if nested then write r else text (columns g f true)
        | _ => write r
      let fromSql := (numbered b.fromList).flatMap fun (i, f) =>
        let item := g.item f
        if i == 0 then text (" FROM " ++ tableRef item)
        else if item.isOuter then
          text (" LEFT OUTER JOIN " ++ tableRef item) ++
            (match item.join with
              | some j => text " ON " ++ write j.predicate
              | none => [])
        else text (", " ++ tableRef item)
      text "SELECT " ++ (if s.distinct then text "DISTINCT " else []) ++ sepBy ", " results ++
        (if nested then [] else s.fetches.flatMap fun fetch => text (", " ++ columns g fetch.target true)) ++
        (if s.hasFrom then fromSql else []) ++
        whereSql s.whereClause ++
        (if s.groupBy.isEmpty then [] else text " GROUP BY " ++ sepBy ", " (s.groupBy.map write)) ++
        (match s.having with
          | some h => text " HAVING " ++ write h
          | none => []) ++
        (if s.orderBy.isEmpty then []
          else text " ORDER BY " ++ sepBy ", " (s.orderBy.map fun t =>
            write t.expr ++ (if t.descending then text " DESC" else [])))
    | .update assignments w =>
      text ("UPDATE " ++ bulkTarget ++ " SET ") ++
        sepBy ", " (assignments.flatMap fun a =>
          a.columns.map fun c => text (quoteIdentifier c ++ " = ") ++ write a.value) ++
        whereSql w
    | .delete w => text ("DELETE FROM " ++ bulkTarget) ++ whereSql w

/-- The SQL of an expression; `depth` bounds the nesting of sub-queries written. -/
def expr (g : Graph) (o : CompileOptions) (depth : Nat) (e : Expr) : List Piece :=
  exprWith g o (fun q => query g o depth q true) e

/-- The SQL of the statement `root` of a graph. Each sub-query is a block made after the block
that holds it, so the nesting is at most as deep as there are blocks. -/
def statement (g : Graph) (o : CompileOptions) (root : QueryId) : Emitted :=
  let ps := query g o (g.blocks.size + 1) root false
  { sql := String.join (ps.map Piece.render), markers := ps.filterMap Piece.argument? }

end Sql

end EntityQuery
