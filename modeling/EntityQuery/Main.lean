import EntityQuery.Cli.Command

/-!
# The command line

`eql <command>` with the commands `compile`, `check`, `tokens`, `docs` and `doc`. The query is
the argument after the command or, when there is none and standard input is not a terminal,
all of standard input; `compile` and `check` read the schema document from the file given by
`--schema`. `Invocation.read` reads the arguments without effects; `main` reads the query and
the schema, runs the command, prints its output, and on a failure prints the failure's
message to standard error and ends with status 1. Arguments it cannot read end with status 2.
-/

namespace EntityQuery

namespace CommandLine

/-- What the command line asks for. -/
inductive Invocation where
  | compile (query : Option String) (schemaPath : String) (form : OutputForm)
  | check (query : Option String) (schemaPath : String)
  | tokens (query : Option String)
  | docs
  | doc (category : String)
  | help (text : String)
  | version
  deriving Repr

/-- The arguments as read: the words that are not options, and the options given. -/
structure Arguments where
  words : List String := []
  schema : Option String := none
  json : Bool := false
  pretty : Bool := false
  help : Bool := false
  version : Bool := false
  unknown : List String := []
  deriving Repr

/-- The general help. -/
def generalHelp : String :=
  "\n".intercalate [
    "eql - compile entity queries (SELECT/UPDATE/DELETE over entities) into SQL",
    "",
    "Usage: eql [OPTIONS] <COMMAND>",
    "",
    "Commands:",
    "  compile  Compile a query and print the SQL and its parameter bindings",
    "  check    Validate a query against a schema",
    "  tokens   Print the tokens of a query",
    "  docs     List documentation categories",
    "  doc      Show documentation for a specific category",
    "  help     Print this message or the help of the given subcommand(s)",
    "",
    "Options:",
    "  -v, --verbose  Log compiler decisions to stderr",
    "  -h, --help     Print help",
    "  -V, --version  Print version"]

/-- The usage line of a command. -/
def usage : String → String
  | "compile" => "Usage: eql compile [OPTIONS] --schema <SCHEMA> [QUERY]"
  | "check" => "Usage: eql check [OPTIONS] --schema <SCHEMA> [QUERY]"
  | "tokens" => "Usage: eql tokens [OPTIONS] [QUERY]"
  | "docs" => "Usage: eql docs [OPTIONS]"
  | "doc" => "Usage: eql doc [OPTIONS] <CATEGORY>"
  | _ => "Usage: eql [OPTIONS] <COMMAND>"

/-- The help of a command. -/
def commandHelp (command : String) : String :=
  let about := match command with
    | "compile" => "Compile a query and print the SQL and its parameter bindings"
    | "check" => "Validate a query against a schema"
    | "tokens" => "Print the tokens of a query"
    | "docs" => "List documentation categories"
    | _ => "Show documentation for a specific category"
  let arguments := match command with
    | "compile" | "check" | "tokens" =>
      ["Arguments:", "  [QUERY]  The query (reads from stdin if not provided)", ""]
    | "doc" => ["Arguments:", "  <CATEGORY>  Category name (use 'eql docs' to list categories)", ""]
    | _ => []
  let options := match command with
    | "compile" =>
      ["  -s, --schema <SCHEMA>  JSON schema document",
       "      --json             Print the compiled query as JSON",
       "  -p, --pretty           Pretty-print JSON output",
       "  -v, --verbose          Log compiler decisions to stderr",
       "  -h, --help             Print help"]
    | "check" =>
      ["  -s, --schema <SCHEMA>  JSON schema document",
       "  -v, --verbose          Log compiler decisions to stderr",
       "  -h, --help             Print help"]
    | _ =>
      ["  -v, --verbose  Log compiler decisions to stderr",
       "  -h, --help     Print help"]
  "\n".intercalate ([about, "", usage command, ""] ++ arguments ++ ["Options:"] ++ options)

/-- A usage error: what is wrong, the usage line, and where to find help. -/
def usageError (what command : String) : String :=
  "error: " ++ what ++ "\n\n" ++ usage command ++ "\n\nFor more information, try '--help'."

/-- Read the arguments one by one; after `--` every argument is a word. -/
def Arguments.read : List String → Arguments → Arguments
  | [], a => a
  | "--" :: rest, a => { a with words := a.words ++ rest }
  | "-v" :: rest, a | "--verbose" :: rest, a => Arguments.read rest a
  | "-h" :: rest, a | "--help" :: rest, a => Arguments.read rest { a with help := true }
  | "-V" :: rest, a | "--version" :: rest, a => Arguments.read rest { a with version := true }
  | "--json" :: rest, a => Arguments.read rest { a with json := true }
  | "-p" :: rest, a | "--pretty" :: rest, a => Arguments.read rest { a with pretty := true }
  | "-s" :: path :: rest, a | "--schema" :: path :: rest, a =>
    Arguments.read rest { a with schema := some path }
  | arg :: rest, a =>
    if arg.startsWith "--schema=" then
      Arguments.read rest { a with schema := some (arg.drop 9).toString }
    else if arg.startsWith "-s" && arg.length > 2 then
      Arguments.read rest { a with schema := some (arg.drop 2).toString }
    else if arg.startsWith "-" && arg != "-" then
      Arguments.read rest { a with unknown := a.unknown ++ [arg] }
    else Arguments.read rest { a with words := a.words ++ [arg] }

/-- What the arguments ask for, or the text of a usage error. -/
def Invocation.read (args : List String) : Except String Invocation := do
  let a := Arguments.read args {}
  match a.words with
  | [] =>
    if a.help then return .help generalHelp
    if a.version then return .version
    throw (usageError "'eql' requires a subcommand but one was not provided" "")
  | command :: rest =>
    if a.help then
      if ["compile", "check", "tokens", "docs", "doc"].contains command then
        return .help (commandHelp command)
      throw (usageError ("unrecognized subcommand '" ++ command ++ "'") "")
    if command == "help" then
      match rest with
      | [] => return .help generalHelp
      | c :: _ => return .help (commandHelp c)
    let takesSchema := command == "compile" || command == "check"
    let misplaced := a.unknown ++
      (if a.version then ["--version"] else []) ++
      (if a.schema.isSome && !takesSchema then ["--schema"] else []) ++
      (if a.json && command != "compile" then ["--json"] else []) ++
      (if a.pretty && command != "compile" then ["--pretty"] else [])
    match misplaced with
    | arg :: _ => throw (usageError ("unexpected argument '" ++ arg ++ "' found") command)
    | [] => pure ()
    let query ← match rest with
      | [] => pure none
      | [q] => pure (some q)
      | _ :: extra :: _ => throw (usageError ("unexpected argument '" ++ extra ++ "' found") command)
    let schemaPath : Except String String := match a.schema with
      | some p => pure p
      | none =>
        throw (usageError "the following required arguments were not provided:\n  --schema <SCHEMA>" command)
    match command with
    | "compile" => return .compile query (← schemaPath) { json := a.json, pretty := a.pretty }
    | "check" => return .check query (← schemaPath)
    | "tokens" => return .tokens query
    | "docs" =>
      match query with
      | some arg => throw (usageError ("unexpected argument '" ++ arg ++ "' found") command)
      | none => return .docs
    | "doc" =>
      match query with
      | some category => return .doc category
      | none =>
        throw (usageError "the following required arguments were not provided:\n  <CATEGORY>" command)
    | _ => throw (usageError ("unrecognized subcommand '" ++ command ++ "'") "")

/-- The query: the one given, or else standard input when it is not a terminal. -/
def readQuery : Option String → ExceptT CliError IO String
  | some q => pure q
  | none => do
    let stdin ← IO.getStdin
    if ← stdin.isTty then throw .noInput
    stdin.readToEnd

/-- The text of a file. -/
def readFile (path : String) : ExceptT CliError IO String :=
  ExceptT.mk (tryCatch (Except.ok <$> IO.FS.readFile path) fun e => pure (.error (.io (toString e))))

/-- Lift the outcome of a command. -/
def lift {α : Type} (r : Except CliError α) : ExceptT CliError IO α := ExceptT.mk (pure r)

/-- Run what the command line asks for. -/
def run : Invocation → ExceptT CliError IO Unit
  | .compile query path form => do
    let q ← readQuery query
    let text ← readFile path
    IO.println (← lift (Command.compileCommand q (Schema.ofDocument text) form))
  | .check query path => do
    let q ← readQuery query
    let text ← readFile path
    IO.println (← lift (Command.check q (Schema.ofDocument text))).text
  | .tokens query => do
    let q ← readQuery query
    for line in ← lift (Command.tokens q) do
      IO.println line
  | .docs => IO.print Command.docs
  | .doc category => do IO.print (← lift (Command.doc category))
  | .help text => IO.println text
  | .version => IO.println "eql 0.1.0"

end CommandLine

end EntityQuery

/-- Run the command line. -/
def main (args : List String) : IO UInt32 := do
  match EntityQuery.CommandLine.Invocation.read args with
  | .error usage =>
    IO.eprintln usage
    return 2
  | .ok invocation =>
    match ← (EntityQuery.CommandLine.run invocation).run with
    | .ok () => return 0
    | .error e =>
      IO.eprintln e.message
      return 1
