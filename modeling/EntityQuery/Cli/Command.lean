import EntityQuery.Text.CharClass
import EntityQuery.Token.Listing
import EntityQuery.Schema.Document
import EntityQuery.Compiled.Json
import EntityQuery.Cli.Docs

/-!
# Commands

The commands of the command line, apart from reading their arguments and printing:

* `compile`: the compiled query as text, as JSON or as indented JSON;
* `check`: the kind of statement and the number of distinct parameters;
* `tokens`: the listing of each token of the query;
* `docs` and `doc`: the documentation pages.

`compile` and `check` trim the query of white space first and refuse an empty one before
they look at the schema; the query is compiled with the default options.
-/

namespace EntityQuery

/-- Why a command failed. -/
inductive CliError where
  /-- The query did not compile. -/
  | compile (e : CompileError)
  /-- The schema document is not valid; the fault as the reader reports it. -/
  | schema (fault : String)
  /-- A file could not be read. -/
  | io (message : String)
  /-- No query was given. -/
  | noInput
  /-- No documentation category has this name. -/
  | unknownCategory (name : String)
  deriving Repr

namespace CliError

/-- The name of the failure. -/
def code : CliError → String
  | .compile e => e.code
  | .schema _ => "Schema"
  | .io _ => "Io"
  | .noInput => "NoInput"
  | .unknownCategory _ => "UnknownCategory"

/-- The wording of the failure. -/
def message : CliError → String
  | .compile e => e.message
  | .schema fault => "Invalid schema: " ++ fault
  | .io message => "IO error: " ++ message
  | .noInput => "No query provided. Pass it as an argument or pipe it to stdin."
  | .unknownCategory name =>
    "Unknown category: '" ++ name ++ "'\nRun 'eql docs' to see available categories."

end CliError

/-- How the compiled query is printed. -/
structure OutputForm where
  json : Bool := false
  pretty : Bool := false
  deriving DecidableEq, Repr

/-- The outcome of a check: the kind of statement and its number of distinct parameters. -/
structure CheckResult where
  kind : StatementKind
  parameters : Nat
  deriving Repr

/-- The line a check prints. -/
def CheckResult.text (r : CheckResult) : String :=
  "Query is valid (" ++ r.kind.title ++ ", " ++ toString r.parameters ++ " parameter(s))"

namespace Command

/-- A text without the white space at its ends. -/
def trimBlank (s : String) : String :=
  String.ofList ((((s.toList.dropWhile CharClass.isBlank).reverse).dropWhile CharClass.isBlank).reverse)

/-- Compile a query, trimmed, against a schema or the fault of its document: an empty query
fails before the schema is looked at. -/
def compileQuery (query : String) (schema : Except String Schema) :
    Except CliError CompiledQuery := do
  let text := trimBlank query
  if text.isEmpty then throw .noInput
  let s ← schema.mapError .schema
  (compile s {} text).mapError .compile

/-- The compiled query printed as the output form says. -/
def render (form : OutputForm) (c : CompiledQuery) : String :=
  match form.json, form.pretty with
  | true, true => c.toJson.pretty 0
  | true, false => c.toJson.compact
  | false, _ => c.formatText

/-- The command compile. -/
def compileCommand (query : String) (schema : Except String Schema) (form : OutputForm) :
    Except CliError String :=
  (compileQuery query schema).map (render form)

/-- The command check. -/
def check (query : String) (schema : Except String Schema) : Except CliError CheckResult := do
  let c ← compileQuery query schema
  pure { kind := c.kind, parameters := c.parameters.length }

/-- The command tokens: the listing of each token, in order. -/
def tokens (query : String) : Except CliError (List String) :=
  match tokenize query with
  | .ok ts => pure (ts.map Token.listing)
  | .error e => throw (.compile e)

/-- The command docs. -/
def docs : String := Docs.overview

/-- The command doc: the page of a category. -/
def doc (category : String) : Except CliError String :=
  match Docs.Category.parse? category with
  | some c => pure c.page
  | none => throw (.unknownCategory category)

end Command

end EntityQuery
