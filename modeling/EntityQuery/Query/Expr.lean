import EntityQuery.Text.Decimal
import EntityQuery.Schema.Basic

/-!
# Expressions of the query graph

An `Expr` is a condition or value of a query block. Its leaves refer to the graph: a
`ColumnRef` names a column of a from-item by the item's `FromId`, a sub-query is named by its
`QueryId`, and a parameter by its index in the graph's argument list. A dotted path that has
not been lowered yet is an `entityPath` (an entity bound to a from-item, compared by identity)
or a `collectionPath` (a collection, evaluated through a correlated sub-query on its table).
A `join` is the equi-join that a condition `path = alias` expresses.

`Expr.conjunction` and `Expr.disjunction` flatten nested conjunctions and disjunctions;
`Expr.conjuncts` lists the top-level parts of a conjunction. `Expr.requires f` says that the
expression cannot hold when every column of the from-item `f` is NULL: such an expression
holds only under an inner join of `f`.
-/

namespace EntityQuery

/-- The index of a from-item in its graph. -/
structure FromId where
  idx : Nat
  deriving DecidableEq, Repr, Inhabited

/-- The index of a query block in its graph: the statement itself or a sub-query. -/
structure QueryId where
  idx : Nat
  deriving DecidableEq, Repr, Inhabited

/-- A column of a from-item. -/
structure ColumnRef where
  source : FromId
  column : String
  deriving DecidableEq, Repr, Inhabited

/-- A literal value. A string literal is kept as written, quotes included. -/
inductive Literal where
  | integer (n : Nat)
  | long (n : Nat)
  | double (d : Decimal)
  | string (lexeme : String)
  | boolean (b : Bool)
  deriving DecidableEq, Repr, Inhabited

/-- The current date, time or timestamp. -/
inductive DateTimeFn where
  | currentDate | currentTime | currentTimestamp
  deriving DecidableEq, Repr, Inhabited

/-- The SQL name of a date or time function. -/
def DateTimeFn.sql : DateTimeFn → String
  | .currentDate => "CURRENT_DATE"
  | .currentTime => "CURRENT_TIME"
  | .currentTimestamp => "CURRENT_TIMESTAMP"

/-- The quantifier `ALL`, or `ANY` (also written `SOME`), in front of a sub-query. -/
inductive Quantifier where
  | all | any
  deriving DecidableEq, Repr, Inhabited

/-- The SQL word of a quantifier. -/
def Quantifier.sql : Quantifier → String
  | .all => "ALL"
  | .any => "ANY"

/-- Which ends of a string `TRIM` removes characters from. -/
inductive TrimSpec where
  | leading | trailing | both
  deriving DecidableEq, Repr, Inhabited

/-- The SQL word of a trim specification. -/
def TrimSpec.sql : TrimSpec → String
  | .leading => "LEADING"
  | .trailing => "TRAILING"
  | .both => "BOTH"

/-- Binary operators: comparisons and arithmetic. -/
inductive BinOp where
  | eq | ne | lt | gt | le | ge
  | add | sub | mul | div
  deriving DecidableEq, Repr, Inhabited

/-- The SQL spelling of a binary operator. -/
def BinOp.sql : BinOp → String
  | .eq => "=" | .ne => "<>" | .lt => "<" | .gt => ">" | .le => "<=" | .ge => ">="
  | .add => "+" | .sub => "-" | .mul => "*" | .div => "/"

/-- Whether a binary operator compares its operands. -/
def BinOp.isComparison : BinOp → Bool
  | .eq | .ne | .lt | .gt | .le | .ge => true
  | _ => false

/-- Prefix operators: negation of a condition, of a number, and the sign kept for checking. -/
inductive UnaryOp where
  | not | neg | plus
  deriving DecidableEq, Repr, Inhabited

/-- A collection-valued path, evaluated through a correlated sub-query on `table` under
`alias`: the rows whose `linkColumns` equal the owner's `ownerKeys`, pairwise. The element's
identity is held in `elementKeys`. -/
structure CollectionRef where
  path : String
  ownerKeys : List ColumnRef
  table : Table
  aliasName : String
  linkColumns : List String
  elementKeys : List String
  elementEntity : String
  deriving DecidableEq, Repr, Inhabited

/-- Whether a join reaches at most one target row per parent row. -/
inductive JoinKind where
  | toOne | toMany
  deriving DecidableEq, Repr, Inhabited

/-- The columns of an equi-join from a parent item to a target item: pairs of a parent column
and a target column. -/
structure Link where
  parent : FromId
  target : FromId
  pairs : List (String × String)
  kind : JoinKind
  deriving DecidableEq, Repr, Inhabited

namespace Link

/-- The parent's columns of the link. -/
def parentColumns (l : Link) : List String := l.pairs.map (·.1)

/-- The target's columns of the link. -/
def targetColumns (l : Link) : List String := l.pairs.map (·.2)

/-- The parent column paired with a target column. -/
def parentColumnFor? (l : Link) (targetColumn : String) : Option String :=
  (l.pairs.find? (·.2 == targetColumn)).map (·.1)

/-- The target column paired with a parent column. -/
def targetColumnFor? (l : Link) (parentColumn : String) : Option String :=
  (l.pairs.find? (·.1 == parentColumn)).map (·.2)

end Link

/-- An expression of a query block. -/
inductive Expr where
  | literal (l : Literal)
  | null
  /-- A parameter, by its index in the graph's argument list. -/
  | argument (index : Nat)
  | column (c : ColumnRef)
  /-- The entity bound to a from-item, before it is lowered to its identity. -/
  | entityPath (source : FromId)
  /-- A collection, before it is used by `IS EMPTY`, `MEMBER OF` or `SIZE`. -/
  | collectionPath (c : CollectionRef)
  /-- All columns of an entity when selected, its identity elsewhere. -/
  | loadEntity (source : FromId)
  | unary (op : UnaryOp) (operand : Expr)
  | binary (op : BinOp) (left right : Expr)
  | concat (left right : Expr)
  | between (e low high : Expr) (negated : Bool)
  /-- A `LIKE` test, with the escape literal as written. -/
  | like (e pattern : Expr) (escape : Option String) (negated : Bool)
  | inList (e : Expr) (values : List Expr) (negated : Bool)
  | isNull (e : Expr) (negated : Bool)
  | isEmpty (c : CollectionRef) (negated : Bool)
  /-- Values compared pairwise with the element keys of a collection. -/
  | memberOf (item : List Expr) (c : CollectionRef) (negated : Bool)
  | size (c : CollectionRef)
  | call (name : String) (args : List Expr) (distinct : Bool)
  | trim (spec : Option TrimSpec) (character : Option Expr) (source : Expr)
  | position (needle haystack : Expr)
  | caseWhen (condition whenTrue otherwise : Expr)
  | dateTime (f : DateTimeFn)
  | conj (parts : List Expr)
  | disj (parts : List Expr)
  | subSelect (q : QueryId)
  | «exists» (q : QueryId)
  | quantified (quantifier : Quantifier) (q : QueryId)
  /-- The join a condition `path = alias` expresses, with a filter on its target. -/
  | join (link : Link) (extra : Option Expr)
  deriving BEq, Inhabited

/-- How a parameter is named in the query text. -/
inductive ArgSource where
  /-- A positional parameter `?n`, numbered from 1. -/
  | positional (n : Nat)
  /-- A named parameter `:name`. -/
  | named (name : String)
  deriving DecidableEq, Repr, Inhabited

/-- Built-in functions that give NULL for a NULL argument. -/
def nullPropagating : List String :=
  ["LENGTH", "ABS", "SQRT", "MOD", "LOWER", "UPPER", "SUBSTRING"]

namespace Expr

/-- A column of a from-item as an expression. -/
def col (source : FromId) (column : String) : Expr := .column ⟨source, column⟩

/-- The parts of a list of expressions, with the parts of nested conjunctions in their place. -/
def flattenConj : List Expr → List Expr
  | [] => []
  | .conj inner :: rest => inner ++ flattenConj rest
  | e :: rest => e :: flattenConj rest

/-- The parts of a list of expressions, with the parts of nested disjunctions in their place. -/
def flattenDisj : List Expr → List Expr
  | [] => []
  | .disj inner :: rest => inner ++ flattenDisj rest
  | e :: rest => e :: flattenDisj rest

/-- The conjunction of `parts`, flattening nested conjunctions; one part stands alone. -/
def conjunction (parts : List Expr) : Expr :=
  match flattenConj parts with
  | [e] => e
  | flat => .conj flat

/-- The disjunction of `parts`, flattening nested disjunctions; one part stands alone. -/
def disjunction (parts : List Expr) : Expr :=
  match flattenDisj parts with
  | [e] => e
  | flat => .disj flat

/-- The conjunction of `parts`, or nothing when there are none. -/
def andAll (parts : List Expr) : Option Expr :=
  if parts.isEmpty then none else some (conjunction parts)

mutual

/-- The top-level parts of a conjunction, nested conjunctions included. -/
def conjuncts : Expr → List Expr
  | .conj parts => conjunctsAll parts
  | e => [e]

/-- The top-level parts of each conjunction of a list, in order. -/
def conjunctsAll : List Expr → List Expr
  | [] => []
  | e :: es => conjuncts e ++ conjunctsAll es

end

/-- Whether an expression gives a truth value rather than a scalar. -/
def isPredicate : Expr → Bool
  | .binary op _ _ => op.isComparison
  | .unary op _ => op == .not
  | .between .. | .like .. | .inList .. | .isNull .. | .isEmpty .. | .memberOf ..
  | .conj _ | .disj _ | .exists _ | .join .. => true
  | _ => false

/-- The collection an expression evaluates, if any. -/
def collection? : Expr → Option CollectionRef
  | .collectionPath c | .isEmpty c _ | .memberOf _ c _ | .size c => some c
  | _ => none

/-- The sub-query an expression names directly, if any. -/
def subquery? : Expr → Option QueryId
  | .subSelect q | .exists q | .quantified _ q => some q
  | _ => none

/-- Whether an expression is a quantified sub-query: `x > ALL (...)` holds for a NULL `x`
when the sub-query is empty. -/
def isQuantified : Expr → Bool
  | .quantified .. => true
  | _ => false

mutual

/-- The expression cannot hold when every column of `f` is NULL: it only holds under an
inner join of `f`. -/
def requires (f : FromId) : Expr → Bool
  | .column c => c.source == f
  | .unary op e => op != .not && e.requires f
  | .binary _ l r => !r.isQuantified && (l.requires f || r.requires f)
  | .concat l r => l.requires f || r.requires f
  | .position n h => n.requires f || h.requires f
  | .between e lo hi negated => !negated && (e.requires f || lo.requires f || hi.requires f)
  | .like e p _ negated => !negated && (e.requires f || p.requires f)
  | .inList e _ negated => !negated && e.requires f
  | .isNull e negated => negated && e.requires f
  | .call name args _ => nullPropagating.contains name && anyRequires f args
  | .trim _ (some c) s => s.requires f || c.requires f
  | .trim _ none s => s.requires f
  | .conj parts => anyRequires f parts
  | .disj parts => !parts.isEmpty && allRequire f parts
  | .join l _ => l.parent == f || l.target == f
  | _ => false

/-- Some expression of the list requires `f`. -/
def anyRequires (f : FromId) : List Expr → Bool
  | [] => false
  | e :: es => e.requires f || anyRequires f es

/-- Every expression of the list requires `f`. -/
def allRequire (f : FromId) : List Expr → Bool
  | [] => true
  | e :: es => e.requires f && allRequire f es

end

mutual

/-- Apply `g` to every column reference, collection owner keys included. -/
def mapColumns (g : ColumnRef → ColumnRef) : Expr → Expr
  | .column c => .column (g c)
  | .collectionPath c => .collectionPath { c with ownerKeys := c.ownerKeys.map g }
  | .isEmpty c n => .isEmpty { c with ownerKeys := c.ownerKeys.map g } n
  | .memberOf item c n => .memberOf (mapColumnsAll g item) { c with ownerKeys := c.ownerKeys.map g } n
  | .size c => .size { c with ownerKeys := c.ownerKeys.map g }
  | .unary op e => .unary op (e.mapColumns g)
  | .binary op l r => .binary op (l.mapColumns g) (r.mapColumns g)
  | .concat l r => .concat (l.mapColumns g) (r.mapColumns g)
  | .between e lo hi n => .between (e.mapColumns g) (lo.mapColumns g) (hi.mapColumns g) n
  | .like e p esc n => .like (e.mapColumns g) (p.mapColumns g) esc n
  | .inList e vs n => .inList (e.mapColumns g) (mapColumnsAll g vs) n
  | .isNull e n => .isNull (e.mapColumns g) n
  | .call name args d => .call name (mapColumnsAll g args) d
  | .trim spec (some c) s => .trim spec (some (c.mapColumns g)) (s.mapColumns g)
  | .trim spec none s => .trim spec none (s.mapColumns g)
  | .position n h => .position (n.mapColumns g) (h.mapColumns g)
  | .caseWhen c t o => .caseWhen (c.mapColumns g) (t.mapColumns g) (o.mapColumns g)
  | .conj parts => .conj (mapColumnsAll g parts)
  | .disj parts => .disj (mapColumnsAll g parts)
  | .join l (some x) => .join l (some (x.mapColumns g))
  | .join l none => .join l none
  | e => e

/-- Apply `g` to every column reference of each expression of a list. -/
def mapColumnsAll (g : ColumnRef → ColumnRef) : List Expr → List Expr
  | [] => []
  | e :: es => e.mapColumns g :: mapColumnsAll g es

end

end Expr

/-- The equality of each column pair of a link, then the extra filter, as one conjunction. -/
def Link.predicate (l : Link) (extra : Option Expr) : Expr :=
  let parts := l.pairs.map fun (p, t) => Expr.binary .eq (Expr.col l.parent p) (Expr.col l.target t)
  Expr.conjunction (parts ++ extra.toList)

namespace Expr

mutual

/-- Replace every join by its equality predicate. -/
def replaceJoins : Expr → Expr
  | .join l (some x) => l.predicate (some (x.replaceJoins))
  | .join l none => l.predicate none
  | .unary op e => .unary op e.replaceJoins
  | .binary op l r => .binary op l.replaceJoins r.replaceJoins
  | .concat l r => .concat l.replaceJoins r.replaceJoins
  | .between e lo hi n => .between e.replaceJoins lo.replaceJoins hi.replaceJoins n
  | .like e p esc n => .like e.replaceJoins p.replaceJoins esc n
  | .inList e vs n => .inList e.replaceJoins (replaceJoinsAll vs) n
  | .isNull e n => .isNull e.replaceJoins n
  | .memberOf item c n => .memberOf (replaceJoinsAll item) c n
  | .call name args d => .call name (replaceJoinsAll args) d
  | .trim spec (some c) s => .trim spec (some c.replaceJoins) s.replaceJoins
  | .trim spec none s => .trim spec none s.replaceJoins
  | .position n h => .position n.replaceJoins h.replaceJoins
  | .caseWhen c t o => .caseWhen c.replaceJoins t.replaceJoins o.replaceJoins
  | .conj parts => .conj (replaceJoinsAll parts)
  | .disj parts => .disj (replaceJoinsAll parts)
  | e => e

/-- Replace every join of each expression of a list by its equality predicate. -/
def replaceJoinsAll : List Expr → List Expr
  | [] => []
  | e :: es => e.replaceJoins :: replaceJoinsAll es

end

end Expr

end EntityQuery
