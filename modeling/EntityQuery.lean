import EntityQuery.Text.CharClass
import EntityQuery.Text.Decimal
import EntityQuery.Text.Quoted
import EntityQuery.Text.Shortest
import EntityQuery.Token.Basic
import EntityQuery.Token.Listing
import EntityQuery.Token.Scanner
import EntityQuery.Error
import EntityQuery.Schema.Basic
import EntityQuery.Query.Expr
import EntityQuery.Query.Graph
import EntityQuery.Sql.Quote
import EntityQuery.Query.Binding
import EntityQuery.Query.Reader
import EntityQuery.Query.Grammar
import EntityQuery.Query.Joins.Elimination
import EntityQuery.Query.Joins.Semantics
import EntityQuery.Query.Joins.Bulk
import EntityQuery.Query.Optimize
import EntityQuery.Options
import EntityQuery.Sql.Writer
import EntityQuery.Json.Value
import EntityQuery.Compiled.Basic
import EntityQuery.Compiled.Json
import EntityQuery.Json.Reader
import EntityQuery.Schema.Document
import EntityQuery.Cli.Docs
import EntityQuery.Cli.Command
import EntityQuery.Main
import EntityQuery.Proofs.Sql.Text
import EntityQuery.Proofs.Token.Lexemes
import EntityQuery.Proofs.Query.Writable
import EntityQuery.Proofs.Query.Binding
import EntityQuery.Proofs.Query.Reading
import EntityQuery.Proofs.Query.Clauses
import EntityQuery.Proofs.Query.Parsed
import EntityQuery.Proofs.Sql.Written
import EntityQuery.Proofs.Query.Correlated
import EntityQuery.Proofs.Query.Optimized
import EntityQuery.Proofs.Compiled.Markers
import EntityQuery.Proofs.Compiled.Bindings
import EntityQuery.Proofs.Graph.Within
import EntityQuery.Proofs.Graph.WellFormed
import EntityQuery.Proofs.Graph.Optimized
import EntityQuery.Proofs.Graph.Placed
import EntityQuery.Proofs.Graph.Binding
import EntityQuery.Proofs.Graph.Reading
import EntityQuery.Proofs.Graph.Clauses
import EntityQuery.Proofs.Graph.Parsed
import EntityQuery.Proofs.Compiled.WellFormed
import EntityQuery.Proofs.Token.Rescanning
import EntityQuery.Proofs.Query.Rescanned
import EntityQuery.Proofs.Query.Locate
import EntityQuery.Proofs.Graph.JoinOrder
import EntityQuery.Proofs.Token.Prefixes
import EntityQuery.Proofs.Query.Registering
import EntityQuery.Proofs.Query.TextOrder
import EntityQuery.Proofs.Compiled.Parameters
import EntityQuery.Proofs.Sql.Identifier
import EntityQuery.Proofs.Token.Partition
import EntityQuery.Proofs.Query.Aliases
import EntityQuery.Proofs.Query.Reserved
import EntityQuery.Proofs.Query.Lowered
import EntityQuery.Proofs.Query.Lowering
import EntityQuery.Proofs.Query.JoinFree
import EntityQuery.Proofs.Graph.OuterOrder
import EntityQuery.Proofs.Compiled.FromClause
