/-!
# Compile options

The settings that change the SQL a query compiles to: how the literals `TRUE` and `FALSE` are
written, and the prefix of the aliases the compiler makes up for implicit joins and the
correlated sub-queries of collections.
-/

namespace EntityQuery

/-- The settings of one compilation. -/
structure CompileOptions where
  /-- The SQL text of `TRUE`. -/
  trueLiteral : String := "true"
  /-- The SQL text of `FALSE`. -/
  falseLiteral : String := "false"
  /-- The prefix of generated aliases. -/
  aliasPrefix : String := "eql"
  deriving DecidableEq, Repr, Inhabited

end EntityQuery
