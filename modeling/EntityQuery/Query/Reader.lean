import EntityQuery.Token.Scanner
import EntityQuery.Query.Binding

/-!
# Reading a query text

A `Reader` holds what the grammar needs while it reads one text: the scanner, the one token
looked ahead at, the text of the token taken last, the binder, the block being read, and the
join semantics and fetch flag of the FROM declaration being read. `Reading` is a state over
the reader that may fail with a `CompileError`.

An error is placed at the token the reader stands on: the token looked ahead at if there is
one, else the token taken last, with the offset of the token scanned last. Since the grammar
looks one token ahead, this can be the token after the one at fault.

A `Mark` saves the scanner and the token looked ahead at, so that reading can go back: a
SELECT reads its FROM clause first, then goes back to read its select list. What the binder
learnt stays, and so does the text of the token taken last.
-/

namespace EntityQuery

/-- The state of reading one query text. -/
structure Reader where
  scanner : Scanner
  /-- The token looked ahead at and not yet taken. -/
  pending : Option Token := none
  /-- The text of the token taken last. -/
  last : String := ""
  binder : Binder
  /-- The block being read. -/
  query : Option QueryId := none
  /-- The semantics of the FROM declaration being read. -/
  joinSemantics : JoinSemantics := .unknown
  /-- Whether the FROM declaration being read is a `JOIN FETCH`. -/
  joinFetch : Bool := false
  /-- The `JOIN FETCH` declarations read and not yet given to their block. -/
  pendingFetches : List FetchJoin := []

/-- A point of the text to go back to. -/
structure Mark where
  scanner : Scanner
  pending : Option Token

/-- A step of reading. -/
abbrev Reading := StateT Reader (Except CompileError)

namespace Reading

/-- The error `r` at the token the reader stands on. -/
def errorAt (r : Reason) : Reading CompileError := do
  let s ← get
  let token := match s.pending with
    | some t => t.text
    | none => s.last
  pure { reason := r, token := some token, position := some s.scanner.start, query := s.scanner.query }

/-- Fail with `r` at the token the reader stands on. -/
def fail {α : Type} (r : Reason) : Reading α := do
  throw (← errorAt r)

/-- Fail because `found` stands where `expected` should. -/
def unexpected {α : Type} (expected : String) (found : Token) : Reading α :=
  fail (.expected expected found.describe)

/-- Scan one token. -/
def scan : Reading Token := do
  let s ← get
  match s.scanner.next with
  | .ok (t, sc) =>
    set { s with scanner := sc }
    pure t
  | .error e => throw e

/-- The next token, without taking it. -/
def peek : Reading Token := do
  match (← get).pending with
  | some t => pure t
  | none =>
    let t ← scan
    modify fun s => { s with pending := some t }
    pure t

/-- Take the next token. -/
def next : Reading Token := do
  let t ← match (← get).pending with
    | some t =>
      modify fun s => { s with pending := none }
      pure t
    | none => scan
  modify fun s => { s with last := t.text }
  pure t

/-- Take the next token, which is not looked at. -/
def skip : Reading Unit := do
  let _ ← next

/-- Whether the next token is `t`. -/
def check (t : Token) : Reading Bool := do
  return (← peek) == t

/-- Whether the next token is the keyword `k`. -/
def checkKeyword (k : Keyword) : Reading Bool := do
  return (← peek).isKeyword k

/-- Take the next token if it is `t`. -/
def eat (t : Token) : Reading Bool := do
  if ← check t then
    skip
    pure true
  else pure false

/-- Take the next token if it is the keyword `k`. -/
def eatKeyword (k : Keyword) : Reading Bool := do
  if ← checkKeyword k then
    skip
    pure true
  else pure false

/-- Take the token `t`, or fail. -/
def expect (t : Token) : Reading Unit := do
  let found ← next
  if found != t then unexpected ("'" ++ t.text ++ "'") found

/-- Take the keyword `k`, or fail. -/
def expectKeyword (k : Keyword) : Reading Unit := do
  let found ← next
  if !found.isKeyword k then unexpected k.spelling found

/-- Take an identifier, or fail. -/
def expectIdentifier : Reading String := do
  match ← next with
  | .identifier name => pure name
  | other => unexpected "identifier" other

/-- Take a name where reserved words stand for themselves too, as written: a field name
after a dot, or an entity name. -/
def word (expected : String) : Reading String := do
  match ← next with
  | .identifier name => pure name
  | .keyword _ => return (← get).scanner.lexeme
  | other => unexpected expected other

/-- Take a field name. -/
def fieldName : Reading String := word "field name"

/-- Fail unless the text ends here. -/
def expectEnd : Reading Unit := do
  let found ← peek
  if found != .eof then unexpected "end of query" found

/-- The present point of the text. -/
def mark : Reading Mark := do
  let s ← get
  pure ⟨s.scanner, s.pending⟩

/-- Go back to a point of the text. -/
def reset (m : Mark) : Reading Unit :=
  modify fun s => { s with scanner := m.scanner, pending := m.pending }

/-- An upper bound on the tokens left: each token other than the one looked ahead at spans
at least one character. -/
def budget : Reading Nat := do
  return (← get).scanner.rest.length + 2

/-- The block being read; the first block before any is made. -/
def current : Reading QueryId := do
  return (← get).query.getD ⟨0⟩

/-- Read in block `q` from now on. -/
def enterBlock (q : QueryId) : Reading Unit :=
  modify fun s => { s with query := some q }

/-- The binder. -/
def binder : Reading Binder := do
  return (← get).binder

/-- Run a step of binding; its failure is placed at the token the reader stands on. -/
def bind {α : Type} (m : Binding α) : Reading α := do
  let s ← get
  match m.run s.binder with
  | .ok (a, b) =>
    set { s with binder := b }
    pure a
  | .error r => fail r

/-- Fail with the reason of a failed binder query, or give its value. -/
def orFail {α : Type} : Except Reason α → Reading α
  | .ok a => pure a
  | .error r => fail r

/-- An expression as one value. -/
def scalar (e : Expr) : Reading Expr := do
  orFail ((← binder).toScalar e)

/-- The values an expression stands for. -/
def values (e : Expr) : Reading (List Expr) := do
  orFail ((← binder).toValues e)

/-- Change the block `q` of the graph. -/
def modifyBlock (q : QueryId) (h : Block → Block) : Reading Unit :=
  modify fun s => { s with binder := { s.binder with graph := s.binder.graph.modifyBlock q h } }

end Reading

end EntityQuery
