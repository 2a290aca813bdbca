import EntityQuery.Query.Reader

/-!
# The grammar of queries

`ParsedQuery.read` reads a SELECT, UPDATE or DELETE statement into a graph, by recursive
descent. Binding happens while reading: a name is resolved as soon as it is read, so a
SELECT reads its FROM clause first, goes back to read its select list, then goes on after the
FROM clause. The select list of a block without FROM may hold literals and the date and time
functions only.

Conditions bind loosest at `OR`, then `AND`, `NOT`, the comparisons and the predicates
`BETWEEN`, `LIKE`, `IN`, `MEMBER OF` and `IS`, then `||`, then `+` and `-`, then `*` and
`/`, then the signs. A part of a compound condition, an operand of an operator and an
argument of a function stand for one value: an entity there is its single identity column.
Entities compared with `=` or `<>` compare their identities column by column, and
`path = alias` may express a join. `LOCATE` becomes a searched CASE over `POSITION` and
`CONCAT` a chain of `||`.

The grammar's functions take a depth of nesting that they may still use. Every level of
nesting takes at least one token, or is one of the few levels between two tokens, so the
depth given by `ParsedQuery.read`, sixteen levels per character and more, is never used up.
-/

namespace EntityQuery

namespace Grammar

open Reading

/-- The error when the depth of nesting is used up, which no text reaches. -/
def tooDeep {α : Type} : Reading α :=
  fail (.expected "expression" "nesting too deep")

/-- Pass over the tokens of the block up to its FROM, without taking the FROM; false if the
block ends first, at the end of the text or at a closing parenthesis of its own. -/
def skipToFrom : Nat → Nat → Reading Bool
  | 0, _ => pure false
  | fuel + 1, depth => do
    match ← peek with
    | .keyword .«from» => if depth = 0 then return true
    | .eof => return false
    | _ => pure ()
    let depth ← match ← peek with
      | .lparen => pure (depth + 1)
      | .rparen => if depth = 0 then return false else pure (depth - 1)
      | _ => pure depth
    skip
    skipToFrom fuel depth

/-- The dotted rest of a name: each `.` and the word after it. -/
def dottedRest : Nat → String → Reading (String × Bool)
  | 0, name => pure (name, false)
  | fuel + 1, name => do
    if ← eat .dot then
      let (rest, _) ← dottedRest fuel (name ++ "." ++ (← fieldName))
      pure (rest, true)
    else pure (name, false)

/-- The class of a constructor expression `NEW a.b.C(`: the name must be qualified and the
schema's class list must resolve it. -/
def constructor : Reading String := do
  let first ← expectIdentifier
  let (name, qualified) ← dottedRest (← budget) first
  if !qualified then fail (.constructorNotQualified name)
  expect .lparen
  match (← binder).schema.resolveClass name with
  | .found c => pure c
  | .ambiguous cs => fail (.ambiguousClass name (", ".intercalate cs))
  | .missing => fail (.unknownClass name)

/-- An entity name, possibly qualified, read up to the shortest prefix that names an entity;
also the last part read, the default alias. -/
def entityName : Reading (Entity × String) := do
  let first ← word "entity name"
  go (← budget) first first
where
  /-- Look up `name`, or read one more dotted part. -/
  go : Nat → String → String → Reading (Entity × String)
    | 0, name, _ => fail (.unknownEntity name)
    | fuel + 1, name, tail => do
      match (← binder).schema.lookup? name with
      | some e => pure (e, tail)
      | none =>
        if !(← eat .dot) then fail (.unknownEntity name)
        let tail ← fieldName
        go fuel (name ++ "." ++ tail) tail

/-- An alias after a declaration, with or without `AS`. -/
def aliasName? : Reading (Option String) := do
  if ← eatKeyword .as then return some (← expectIdentifier)
  match ← peek with
  | .identifier _ => return some (← expectIdentifier)
  | _ => pure none

/-- The target of an UPDATE or DELETE. -/
def bulkTarget (q : QueryId) : Reading FromId := do
  let (entity, tail) ← entityName
  let aliasName ← aliasName?
  Reading.bind (Binding.declareRoot q entity (aliasName.getD tail) true)

/-- What a FROM declaration starts from: an entity, or an alias with the fields after it. -/
inductive FromSource where
  | root (entity : Entity) (tail : String)
  | path (root : FromId) (segments : List String)

/-- The dotted fields after a name. -/
def segments : Nat → List String → Reading (List String)
  | 0, acc => pure acc
  | fuel + 1, acc => do
    if ← eat .dot then segments fuel (acc ++ [← fieldName]) else pure acc

/-- The source of a FROM declaration. A word that is not an alias of the block starts an
entity name; inside `IN (...)` only a path may stand. -/
def fromSource (q : QueryId) (isIn : Bool) : Reading FromSource := do
  if !isIn then
    let name? ← match ← peek with
      | .identifier name => pure (some name)
      | .keyword _ => pure (some (← get).scanner.lexeme)
      | _ => pure none
    if let some name := name? then
      if ((← binder).lookupAlias q name).isNone then
        let (entity, tail) ← entityName
        return .root entity tail
  let name ← expectIdentifier
  let root ← match (← binder).lookupAlias q name with
    | some f => pure f
    | none => fail (.unknownIdentifier name)
  let segs ← segments (← budget) []
  if segs.isEmpty then fail (.notAnEntity name)
  pure (.path root segs)

/-- Declare a FROM path: every step but the last is a to-one join, the last step gets the
alias. Without `LEFT JOIN` the joins are inner. A fetched path is recorded for its block. -/
def declarePath (q : QueryId) (root : FromId) (segs : List String) (aliasName : Option String) :
    Reading FromId := do
  let s ← get
  let semantics := match s.joinSemantics with
    | .unknown => .inner
    | declared => declared
  match segs.reverse with
  | [] => fail (.notAnEntity (s.binder.graph.item root).aliasName)
  | lastStep :: stepsBack =>
    let mut current := root
    for step in stepsBack.reverse do
      match ← Reading.bind (Binding.navigate q current step semantics) with
      | .entity f => current := f
      | .collection c => fail (.collectionNotAllowed c.path)
      | .column _ => fail (.notNavigable step)
    let aliasName ← match aliasName with
      | some a => pure a
      | none => Reading.bind Binding.generateAlias
    let target ← Reading.bind (Binding.declarePath q current lastStep aliasName semantics)
    if (← get).joinFetch then
      Reading.bind (Binding.markFetch target)
      let rootAlias := ((← binder).graph.item root).aliasName
      let fetch : FetchJoin := { owner := root, target, path := rootAlias ++ "." ++ ".".intercalate segs }
      modify fun s => { s with pendingFetches := s.pendingFetches ++ [fetch] }
    pure target

/-- Declare the item of a FROM declaration from its source and alias: an entity is a root, which
`JOIN FETCH` may not name. -/
def declareSource (q : QueryId) (source : FromSource) (aliasName : Option String) :
    Reading FromId :=
  match source with
  | .root entity tail => do
    if (← get).joinFetch then fail (.notAnEntity entity.name)
    Reading.bind (Binding.declareRoot q entity (aliasName.getD tail) false)
  | .path root segs => declarePath q root segs aliasName

/-- One FROM declaration: `Entity e`, `a.path p`, or `IN (a.path) p`. -/
def fromItem (q : QueryId) : Reading FromId := do
  let isIn ← eatKeyword .«in»
  if isIn then
    modify fun s => { s with joinSemantics := .inner }
    expect .lparen
  let source ← fromSource q isIn
  if isIn then expect .rparen
  let aliasName ← aliasName?
  declareSource q source aliasName

/-- Forget the join of the declaration just read. -/
def clearJoin : Reading Unit :=
  modify fun s => { s with joinSemantics := .unknown, joinFetch := false }

/-- The declarations of a FROM clause, separated by commas and joins. -/
def fromList (q : QueryId) : Reading Unit := do
  clearJoin
  for _ in List.range (← budget) do
    let _ ← fromItem q
    clearJoin
    if ← eat .comma then continue
    if ← eatKeyword .inner then
      expectKeyword .join
      modify fun s => { s with joinSemantics := .inner }
    else if ← eatKeyword .left then
      let _ ← eatKeyword .outer
      expectKeyword .join
      modify fun s => { s with joinSemantics := .outer }
    else if ← eatKeyword .join then
      modify fun s => { s with joinSemantics := .inner }
    else return
    let fetch ← eatKeyword .fetch
    modify fun s => { s with joinFetch := fetch }

/-- Follow `.field` steps from an entity; a step after a column or collection fails. -/
def path (start : Bound) : Reading Expr := do
  let mut here := start
  for _ in List.range (← budget) do
    match here with
    | .entity f =>
      if !(← eat .dot) then break
      let field ← fieldName
      here ← Reading.bind (Binding.navigate (← current) f field .unknown)
    | _ => break
  let isEntity := match here with
    | .entity _ => true
    | _ => false
  if !isEntity && (← check .dot) then fail (.notNavigable (← get).last)
  pure here.toExpr

/-- The test `IS [NOT] EMPTY` of a collection. -/
def emptyTest (e : Expr) (negated : Bool) : Except Reason Expr :=
  match e with
  | .collectionPath c => .ok (.isEmpty c negated)
  | _ => .error (.expected "collection-valued path" "IS EMPTY")

/-- The test `IS [NOT] NULL` or `IS [NOT] EMPTY` after an expression, if `IS` follows. An entity is
null when each identity column is. -/
def isTest (e : Expr) : Reading Expr := do
  if !(← eatKeyword .is) then return e
  let negated ← eatKeyword .not
  match ← next with
  | .null => return Expr.conjunction ((← values e).map (Expr.isNull · negated))
  | .keyword .empty => orFail (emptyTest e negated)
  | other => unexpected "NULL or EMPTY" other

/-- A comparison of two operands. Entities compare their identities column by column, all
columns for `=`, any column for `<>`; `path = alias` may be the join it expresses. -/
def compare (op : BinOp) (left right : Expr) : Reading Expr := do
  match left, right with
  | .entityPath l, .entityPath r =>
    let b ← binder
    if op == .eq then
      if let some link := b.joinForEquality (← current) l r then
        return .join link none
    let lk := b.entityKeys l
    let rk := b.entityKeys r
    if lk.length != rk.length then fail (.compositeIdentity (b.graph.item l).entityName)
    let parts := (lk.zip rk).map fun (a, c) => Expr.binary op (.column a) (.column c)
    pure (if op == .ne then Expr.disjunction parts else Expr.conjunction parts)
  | _, _ => return .binary op (← scalar left) (← scalar right)

/-- A select item: an entity is loaded whole; a collection may not be selected. Without a
FROM clause only literals and the date and time functions may be selected. -/
def resultItem (e : Expr) (hasFrom : Bool) : Reading Expr :=
  if !hasFrom then
    match e with
    | .dateTime _ | .literal _ => pure e
    | _ => fail .missingFrom
  else
    match e with
    | .entityPath f => pure (.loadEntity f)
    | .collectionPath c => fail (.collectionNotAllowed c.path)
    | other => pure other

/-- Fail unless a function has from `least` to `most` arguments, no upper bound for none. -/
def checkArity (function : String) (count least : Nat) (most : Option Nat) : Reading Unit := do
  let outside := match most with
    | some m => count < least || count > m
    | none => count < least
  if outside then
    let expected := match most with
      | some m => if least = m then toString least else toString least ++ " to " ++ toString m
      | none => "at least " ++ toString least
    fail (.wrongArgumentCount function expected)

/-- The call `LOCATE(needle, haystack [, start])` as a searched CASE over `POSITION`: 0 when the
needle is not found, else its 1-based index in the whole haystack. -/
def locate (args : List Expr) : Expr :=
  let needle := args.head?.getD .null
  let haystack := (args.drop 1).head?.getD .null
  let start := (args.drop 2).head?
  let haystack := match start with
    | some s => Expr.call "SUBSTRING" [haystack, s] false
    | none => haystack
  let position := Expr.position needle haystack
  let found := match start with
    | some s => Expr.binary .add position (.binary .sub s (.literal (.integer 1)))
    | none => position
  .caseWhen (.binary .le position (.literal (.integer 0))) (.literal (.integer 0)) found

/-- The call `SIZE(c)` of a collection. -/
def sizeCall : List Expr → Except Reason Expr
  | .collectionPath c :: _ => .ok (.size c)
  | _ => .error (.expected "collection-valued path" "SIZE")

/-- The entity of `OBJECT(e)`, loaded whole. -/
def objectOf : Expr → Except Reason Expr
  | .entityPath f => .ok (.loadEntity f)
  | _ => .error (.notAnEntity "OBJECT()")

/-- The values that `MEMBER OF` compares with the collection `c`'s element identities: the
identity columns of an entity of the element type, or a parameter when the element has a
single identity column. -/
def memberValues (b : Binder) (c : CollectionRef) : Expr → Except Reason (List Expr)
  | .entityPath f =>
    let entity := (b.graph.item f).entityName
    if entity != c.elementEntity then .error (.memberOfTypeMismatch entity c.elementEntity)
    else .ok ((b.entityKeys f).map Expr.column)
  | .argument i =>
    if c.elementKeys.length == 1 then .ok [Expr.argument i]
    else .error (.compositeIdentity c.elementEntity)
  | _ => .error .memberOfItem

/-- A call of a function with its arguments read, after the arity check of the built-in
functions. `SIZE` takes a collection; `CONCAT` becomes a chain of `||`. -/
def buildFunction (name : String) (args : List Expr) (distinct : Bool) : Reading Expr := do
  let count := args.length
  if name == "SIZE" then
    checkArity name count 1 (some 1)
    return ← orFail (sizeCall args)
  if ["LENGTH", "ABS", "SQRT", "LOWER", "UPPER"].contains name then checkArity name count 1 (some 1)
  else if name == "MOD" then checkArity name count 2 (some 2)
  else if name == "SUBSTRING" || name == "LOCATE" then checkArity name count 2 (some 3)
  else if name == "CONCAT" then checkArity name count 2 none
  let lowered ← args.mapM scalar
  if name == "LOCATE" then return locate lowered
  if name == "CONCAT" then
    return match lowered with
      | first :: rest => rest.foldl Expr.concat first
      | [] => .null
  pure (.call name lowered distinct)

/-- The FROM clause of a block, read ahead of its select list: whether there is one, the
`JOIN FETCH` declarations it holds, and the point after it. The reader goes back to the start
of the block. -/
def fromClause (q : QueryId) : Reading (Bool × List FetchJoin × Mark) := do
  let start ← mark
  let hasFrom ← skipToFrom (← budget) 0
  let mut fetches := []
  if hasFrom then
    skip
    fromList q
    fetches := (← get).pendingFetches
    modify fun s => { s with pendingFetches := [] }
  let afterFrom ← mark
  reset start
  pure (hasFrom, fetches, afterFrom)

/-- The select list of a block, each item read by `item`. A block with FROM may leave it out. -/
def selectList (item : Reading Expr) (hasFrom : Bool) : Reading SelectBody := do
  let mut body : SelectBody := { hasFrom }
  if ← eatKeyword .select then
    body := { body with distinct := ← eatKeyword .distinct }
    if ← eatKeyword .new then
      body := { body with constructor := some (← constructor) }
    for _ in List.range (← budget) do
      let e ← item
      let r ← resultItem e hasFrom
      body := { body with results := body.results ++ [r] }
      if !(← eat .comma) then break
    if body.constructor.isSome then expect .rparen
    if hasFrom && !(← checkKeyword .«from») then unexpected "FROM" (← peek)
  else if !hasFrom then unexpected "SELECT or FROM" (← peek)
  pure body

/-- The terms of `GROUP BY`, after the keyword `GROUP`, each read by `item` and taken apart
into its values. -/
def groupByList (item : Reading Expr) : Reading (List Expr) := do
  expectKeyword .«by»
  let mut groupBy := []
  for _ in List.range (← budget) do
    let e ← item
    groupBy := groupBy ++ (← values e)
    if !(← eat .comma) then break
  pure groupBy

/-- The terms of `ORDER BY`, after the keyword `ORDER`, each read by `item` and taken apart
into its values, which share the term's direction. -/
def orderByList (item : Reading Expr) : Reading (List OrderTerm) := do
  expectKeyword .«by»
  let mut orderBy := []
  for _ in List.range (← budget) do
    let e ← item
    let descending ← if ← eatKeyword .desc then pure true
      else
        let _ ← eatKeyword .asc
        pure false
    let terms := (← values e).map fun v => ({ expr := v, descending } : OrderTerm)
    orderBy := orderBy ++ terms
    if !(← eat .comma) then break
  pure orderBy

/-- Whether each `JOIN FETCH` belongs to an item that the select list loads whole. -/
def fetchesLoaded (results : List Expr) (fetches : List FetchJoin) : Bool :=
  fetches.all fun fetch => results.any fun r => match r with
    | .loadEntity f => f == fetch.owner
    | _ => false

/-- The select list completed by the block's first item when it is empty, and the `JOIN FETCH`
declarations, each of which must belong to an item the select list loads whole. -/
def withFetches (q : QueryId) (body : SelectBody) (fetches : List FetchJoin) :
    Reading SelectBody := do
  let mut body := body
  if body.results.isEmpty then
    if !fetches.isEmpty then fail .joinFetchNotSelected
    if let some first := (← binder).firstItem q then
      body := { body with results := [.loadEntity first] }
  if !fetchesLoaded body.results fetches then fail .joinFetchNotSelected
  pure { body with fetches }

/-- The clauses after FROM, each optional: `WHERE` and `HAVING` with conditions read by `cond`,
`GROUP BY` and `ORDER BY` with terms read by `item`. -/
def clauses (item cond : Reading Expr) (body : SelectBody) : Reading SelectBody := do
  let mut body := body
  if ← eatKeyword .«where» then
    body := { body with whereClause := some (← cond) }
  if ← eatKeyword .group then
    body := { body with groupBy := ← groupByList item }
  if ← checkKeyword .having then
    if body.groupBy.isEmpty then fail .havingWithoutGroupBy
    skip
    body := { body with having := some (← cond) }
  if ← eatKeyword .order then
    body := { body with orderBy := ← orderByList item }
  pure body

mutual

/-- A SELECT block, the statement itself or a sub-query of the block being read. The block
being read and its join state are restored afterwards. -/
def select (fuel : Nat) (inner : Bool) : Reading QueryId :=
  match fuel with
  | 0 => tooDeep
  | n + 1 => do
    let s ← get
    let parent := if inner then s.query else none
    let q ← Reading.bind (Binding.newQuery parent (.select {}))
    let saved := (s.query, s.joinSemantics, s.joinFetch)
    enterBlock q
    let body ← selectBody n q inner
    modify fun s => { s with query := saved.1, joinSemantics := saved.2.1, joinFetch := saved.2.2 }
    modifyBlock q fun b => { b with body := .select body }
    pure q
termination_by structural fuel

/-- The parts of a SELECT block: FROM first, then the select list, then the clauses after
FROM. Without a select list the block selects its first item, and then has no fetches. -/
def selectBody (fuel : Nat) (q : QueryId) (inner : Bool) : Reading SelectBody :=
  match fuel with
  | 0 => tooDeep
  | n + 1 => do
    let (hasFrom, fetches, afterFrom) ← fromClause q
    let body ← selectList (expr n) hasFrom
    if hasFrom then reset afterFrom
    let body ← withFetches q body fetches
    let body ← clauses (expr n) (condition n) body
    if !inner then expectEnd
    pure body
termination_by structural fuel

/-- A condition: an expression that stands for one value. -/
def condition (fuel : Nat) : Reading Expr :=
  match fuel with
  | 0 => tooDeep
  | n + 1 => do scalar (← expr n)
termination_by structural fuel

/-- An expression: a sub-query, or a disjunction. -/
def expr (fuel : Nat) : Reading Expr :=
  match fuel with
  | 0 => tooDeep
  | n + 1 => do
    if ← checkKeyword .select then
      return .subSelect (← select n true)
    disjunction n
termination_by structural fuel

/-- Conjunctions joined by `OR`. -/
def disjunction (fuel : Nat) : Reading Expr :=
  match fuel with
  | 0 => tooDeep
  | n + 1 => do
    let first ← conjunction n
    if !(← checkKeyword .or) then return first
    let mut parts := [← scalar first]
    for _ in List.range (← budget) do
      if !(← eatKeyword .or) then break
      let e ← conjunction n
      parts := parts ++ [← scalar e]
    pure (Expr.disjunction parts)
termination_by structural fuel

/-- Negations joined by `AND`. -/
def conjunction (fuel : Nat) : Reading Expr :=
  match fuel with
  | 0 => tooDeep
  | n + 1 => do
    let first ← negation n
    if !(← checkKeyword .and) then return first
    let mut parts := [← scalar first]
    for _ in List.range (← budget) do
      if !(← eatKeyword .and) then break
      let e ← negation n
      parts := parts ++ [← scalar e]
    pure (Expr.conjunction parts)
termination_by structural fuel

/-- A comparison, or `NOT` before a negation. -/
def negation (fuel : Nat) : Reading Expr :=
  match fuel with
  | 0 => tooDeep
  | n + 1 => do
    if ← eatKeyword .not then
      let operand ← negation n
      return .unary .not (← scalar operand)
    comparison n
termination_by structural fuel

/-- An operand, then a comparison or predicate if one follows. `NOT` may stand before
`BETWEEN`, `LIKE`, `IN` and `MEMBER` only. -/
def comparison (fuel : Nat) : Reading Expr :=
  match fuel with
  | 0 => tooDeep
  | n + 1 => do
    let left ← concatenation n
    let negated ← eatKeyword .not
    let token ← peek
    match token with
    | .keyword .between =>
      skip
      let low ← concatenation n
      expectKeyword .and
      let high ← concatenation n
      return .between (← scalar left) (← scalar low) (← scalar high) negated
    | .keyword .like =>
      skip
      let pattern ← concatenation n
      let escape ← if ← eatKeyword .escape then
          match ← next with
          | .string s => pure (some s)
          | other => fail (.escapeRequiresString other.describe)
        else pure none
      let e := Expr.like (← scalar left) (← scalar pattern) escape negated
      isTest e
    | .keyword .«in» =>
      skip
      inPredicate n left negated
    | .keyword .member =>
      skip
      let _ ← eatKeyword .of
      let m ← memberOf n left negated
      isTest m
    | _ =>
      if negated then fail .unexpectedNot
      let op? : Option BinOp := match token with
        | .eq => some .eq | .notEq => some .ne | .lt => some .lt | .ltEq => some .le
        | .gt => some .gt | .gtEq => some .ge
        | _ => none
      match op? with
      | some op =>
        skip
        let right ← concatenation n
        isTest (← compare op left right)
      | none => isTest left
termination_by structural fuel

/-- The list or sub-query of `IN`, and the operand before it. -/
def inPredicate (fuel : Nat) (left : Expr) (negated : Bool) : Reading Expr :=
  match fuel with
  | 0 => tooDeep
  | n + 1 => do
    expect .lparen
    let mut vals := []
    if ← checkKeyword .select then
      vals := [.subSelect (← select n true)]
    else
      if ← check .rparen then fail .emptyInList
      for _ in List.range (← budget) do
        let v ← expr n
        vals := vals ++ [← scalar v]
        if !(← eat .comma) then break
    expect .rparen
    return .inList (← scalar left) vals negated
termination_by structural fuel

/-- The collection of `MEMBER OF`, and the item before it: an entity of the collection's
element type, or a parameter when the element has a single identity column. -/
def memberOf (fuel : Nat) (item : Expr) (negated : Bool) : Reading Expr :=
  match fuel with
  | 0 => tooDeep
  | n + 1 => do
    let target ← concatenation n
    let c ← match target with
      | .collectionPath c => pure c
      | _ => fail (.memberOfCollection ("'" ++ (← get).last ++ "'"))
    let values ← orFail (memberValues (← binder) c item)
    if values.length != c.elementKeys.length then fail .memberOfItem
    pure (.memberOf values c negated)
termination_by structural fuel

/-- Sums joined by `||`. -/
def concatenation (fuel : Nat) : Reading Expr :=
  match fuel with
  | 0 => tooDeep
  | n + 1 => do
    let mut left ← sum n
    for _ in List.range (← budget) do
      if !(← eat .concat) then break
      let right ← sum n
      left := .concat (← scalar left) (← scalar right)
    pure left
termination_by structural fuel

/-- Products joined by `+` and `-`, from the left. -/
def sum (fuel : Nat) : Reading Expr :=
  match fuel with
  | 0 => tooDeep
  | n + 1 => do
    let mut left ← product n
    for _ in List.range (← budget) do
      let op ← match ← peek with
        | .plus => pure BinOp.add
        | .minus => pure BinOp.sub
        | _ => break
      skip
      let right ← product n
      left := .binary op (← scalar left) (← scalar right)
    pure left
termination_by structural fuel

/-- Terms joined by `*` and `/`, from the left. -/
def product (fuel : Nat) : Reading Expr :=
  match fuel with
  | 0 => tooDeep
  | n + 1 => do
    let mut left ← term n
    for _ in List.range (← budget) do
      let op ← match ← peek with
        | .star => pure BinOp.mul
        | .slash => pure BinOp.div
        | _ => break
      skip
      let right ← term n
      left := .binary op (← scalar left) (← scalar right)
    pure left
termination_by structural fuel

/-- A simple term with its signs and `NOT`s in front. -/
def term (fuel : Nat) : Reading Expr :=
  match fuel with
  | 0 => tooDeep
  | n + 1 => do
    let op? : Option UnaryOp := match ← peek with
      | .minus => some .neg
      | .plus => some .plus
      | .keyword .not => some .not
      | _ => none
    match op? with
    | none => simpleTerm n
    | some op =>
      skip
      let operand ← term n
      return .unary op (← scalar operand)
termination_by structural fuel

/-- A literal, parameter, path, function call, sub-query test or parenthesized expression. -/
def simpleTerm (fuel : Nat) : Reading Expr :=
  match fuel with
  | 0 => tooDeep
  | n + 1 => do
    match ← next with
    | .identifier name => identifierTerm n name
    | .keyword k =>
      if k.isFunction then
        let name := (← get).scanner.lexeme
        if ← check .lparen then function n k.spelling else identifierTerm n name
      else
        match k with
        | .currentDate => pure (.dateTime .currentDate)
        | .currentTime => pure (.dateTime .currentTime)
        | .currentTimestamp => pure (.dateTime .currentTimestamp)
        | _ => unexpected "expression" (.keyword k)
    | .integer i => pure (.literal (.integer i))
    | .long i => pure (.literal (.long i))
    | .double d => pure (.literal (.double d))
    | .string s => pure (.literal (.string s))
    | .boolean b => pure (.literal (.boolean b))
    | .null => pure .null
    | .positional i => return .argument (← Reading.bind (Binding.argument (.positional i)))
    | .named name => return .argument (← Reading.bind (Binding.argument (.named name)))
    | .lparen =>
      let e ← expr n
      expect .rparen
      pure e
    | other => unexpected "expression" other
termination_by structural fuel

/-- A name: a function call or sub-query test when `(` follows, else an alias or a field of
the block's first item, then the path after it. -/
def identifierTerm (fuel : Nat) (name : String) : Reading Expr :=
  match fuel with
  | 0 => tooDeep
  | n + 1 => do
    if ← check .lparen then
      let lower := name.map Char.toLower
      if ["exists", "all", "any", "some"].contains lower then
        return ← subqueryTerm n lower
      return ← function n name
    let q ← current
    let b ← binder
    let start ← match b.lookupAlias q name with
      | some f => pure (Bound.entity f)
      | none =>
        match b.firstItem q with
        | some first =>
          match (Binding.navigate q first name .unknown).run b with
          | .ok (bound, b') =>
            modify fun s => { s with binder := b' }
            pure bound
          | .error (.unknownField _ _) => fail (.unknownIdentifier name)
          | .error r => fail r
        | none => fail (.unknownIdentifier name)
    path start
termination_by structural fuel

/-- A sub-query in parentheses after `EXISTS`, `ALL`, `ANY` or `SOME`. -/
def subqueryTerm (fuel : Nat) (keyword : String) : Reading Expr :=
  match fuel with
  | 0 => tooDeep
  | n + 1 => do
    expect .lparen
    if !((← checkKeyword .select) || (← checkKeyword .«from»)) then
      fail (.subqueryExpected (keyword.map Char.toUpper))
    let q ← select n true
    expect .rparen
    pure (match keyword with
      | "exists" => .exists q
      | "all" => .quantified .all q
      | _ => .quantified .any q)
termination_by structural fuel

/-- A function call after its name: `OBJECT` of an entity, `TRIM`, or a call with optional
`DISTINCT` and arguments, `*` standing for none. -/
def function (fuel : Nat) (name : String) : Reading Expr :=
  match fuel with
  | 0 => tooDeep
  | n + 1 => do
    expect .lparen
    let upper := name.map Char.toUpper
    if upper == "OBJECT" then
      let e ← expr n
      expect .rparen
      return ← orFail (objectOf e)
    if upper == "TRIM" then return ← trimCall n
    let distinct ← eatKeyword .distinct
    let mut args := []
    if !(← eat .star) then
      if !(← check .rparen) then
        for _ in List.range (← budget) do
          args := args ++ [← expr n]
          if !(← eat .comma) then break
    expect .rparen
    buildFunction upper args distinct
termination_by structural fuel

/-- The arguments of `TRIM`: an optional `LEADING`, `TRAILING` or `BOTH`, an optional
character, `FROM` when either is given, and the string. -/
def trimCall (fuel : Nat) : Reading Expr :=
  match fuel with
  | 0 => tooDeep
  | n + 1 => do
    let spec : Option TrimSpec := match ← peek with
      | .identifier w =>
        match w.map Char.toLower with
        | "leading" => some .leading
        | "trailing" => some .trailing
        | "both" => some .both
        | _ => none
      | _ => none
    if spec.isSome then skip
    let mut character := none
    let source ← if ← eatKeyword .«from» then expr n
      else
        let first ← expr n
        if ← eatKeyword .«from» then
          character := some (← scalar first)
          expr n
        else if spec.isSome then unexpected "FROM" (← peek)
        else pure first
    expect .rparen
    return .trim spec character (← scalar source)
termination_by structural fuel

end

/-- An UPDATE statement: the target, the assignments of `SET`, and `WHERE`. A field may be
qualified by the target's alias; a to-one field with several columns may only be set to
NULL. -/
def update (fuel : Nat) : Reading QueryId := do
  expectKeyword .update
  let q ← Reading.bind (Binding.newQuery none (.update [] none))
  enterBlock q
  let target ← bulkTarget q
  expectKeyword .set
  let item := (← binder).graph.item target
  let mut assignments := []
  for _ in List.range (← budget) do
    let mut field ← fieldName
    if ← eat .dot then
      if !asciiEqIgnoreCase field item.aliasName then fail (.unknownIdentifier field)
      field ← fieldName
    let columns ← match item.entity.bind (·.field? field) with
      | some (.column c) => pure [c]
      | some (.manyToOne _ cs) => pure cs
      | _ => fail (.unknownField item.entityName field)
    expect .eq
    let value ← expr fuel
    let isNull := match value with
      | .null => true
      | _ => false
    if columns.length > 1 && !isNull then fail (.compositeAssignment field)
    let value ← scalar value
    assignments := assignments ++ [({ field, columns, value } : Assignment)]
    if !(← eat .comma) then break
  let whereClause ← if ← eatKeyword .«where» then some <$> condition fuel else pure none
  expectEnd
  modifyBlock q fun b => { b with body := .update assignments whereClause }
  pure q

/-- A DELETE statement: the target, with `FROM` optional, and `WHERE`. -/
def delete (fuel : Nat) : Reading QueryId := do
  expectKeyword .delete
  let q ← Reading.bind (Binding.newQuery none (.delete none))
  enterBlock q
  let _ ← eatKeyword .«from»
  let _ ← bulkTarget q
  let whereClause ← if ← eatKeyword .«where» then some <$> condition fuel else pure none
  expectEnd
  modifyBlock q fun b => { b with body := .delete whereClause }
  pure q

/-- A statement: UPDATE, DELETE, or else SELECT. -/
def statement (fuel : Nat) : Reading QueryId := do
  if ← checkKeyword .update then update fuel
  else if ← checkKeyword .delete then delete fuel
  else select fuel false

end Grammar

/-- A statement read into its graph, and the block that is the statement itself. -/
structure ParsedQuery where
  graph : Graph
  root : QueryId

namespace ParsedQuery

/-- The identifiers of a text, when it scans: generated aliases avoid them, also those
declared further on. -/
def identifiers (text : String) : List String :=
  match tokenize text with
  | .ok ts => ts.filterMap fun t => match t with
    | .identifier name => some name
    | _ => none
  | .error _ => []

/-- Read a statement of `text` against `schema`, generating aliases with `aliasPrefix`. -/
def read (schema : Schema) (aliasPrefix : String) (text : String) :
    Except CompileError ParsedQuery := do
  let binder := Binder.ofSchema schema aliasPrefix
  let binder := { binder with reserved := (identifiers text).map (·.map Char.toLower) }
  let reader : Reader := { scanner := Scanner.ofString text, binder }
  let (root, reader) ← (Grammar.statement (16 * (text.length + 4))).run reader
  pure { graph := reader.binder.graph, root }

end ParsedQuery

end EntityQuery
