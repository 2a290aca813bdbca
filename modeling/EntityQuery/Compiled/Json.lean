import EntityQuery.Json.Value
import EntityQuery.Compiled.Basic

/-!
# Compiled queries as JSON and text

`CompiledQuery.toJson` is the JSON document of a compiled query, members in the order source,
kind, sql, arguments, parameters, cache_max_age_ms, tables_read_only, result_shape. A
parameter is `{"kind":"positional","value":n}` or `{"kind":"named","value":name}`.

`CompiledQuery.formatText` is the SQL followed by one comment line per marker, naming the
marker's ordinal and the parameter it binds.
-/

namespace EntityQuery

/-- A parameter source as JSON. -/
def ArgSource.toJson : ArgSource → JsonValue
  | .positional n => .obj [("kind", .str "positional"), ("value", .nat n)]
  | .named name => .obj [("kind", .str "named"), ("value", .str name)]

/-- A parameter as written in the query text. -/
def ArgSource.text : ArgSource → String
  | .positional n => "?" ++ toString n
  | .named name => ":" ++ name

/-- A result item as JSON. -/
def ResultItem.toJson : ResultItem → JsonValue
  | .scalar => .obj [("kind", .str "scalar")]
  | .entity name columns =>
    .obj [("kind", .str "entity"), ("entity", .str name), ("columns", .arr (columns.map .str))]

/-- A fetched relationship as JSON. -/
def FetchShape.toJson (f : FetchShape) : JsonValue :=
  .obj [("owner", .str f.owner), ("path", .str f.path), ("entity", .str f.entity),
    ("columns", .arr (f.columns.map .str))]

/-- A result shape as JSON. -/
def ResultShape.toJson (s : ResultShape) : JsonValue :=
  .obj [("items", .arr (s.items.map ResultItem.toJson)), ("constructor", JsonValue.ofOption s.constructor),
    ("fetches", .arr (s.fetches.map FetchShape.toJson)), ("distinct", .bool s.distinct)]

namespace CompiledQuery

/-- The JSON document of a compiled query. -/
def toJson (c : CompiledQuery) : JsonValue :=
  .obj [("source", .str c.source), ("kind", .str c.kind.name), ("sql", .str c.sql),
    ("arguments", .arr (c.arguments.map fun b =>
      .obj [("source", b.source.toJson), ("sql_ordinal", .nat b.sqlOrdinal)])),
    ("parameters", .arr (c.parameters.map ArgSource.toJson)),
    ("cache_max_age_ms", .nat c.cacheMaxAge), ("tables_read_only", .bool c.tablesReadOnly),
    ("result_shape", c.resultShape.toJson)]

/-- The SQL, then a line `-- ordinal <- parameter` per marker. -/
def formatText (c : CompiledQuery) : String :=
  c.sql ++ String.join (c.arguments.map fun b =>
    "\n-- " ++ toString b.sqlOrdinal ++ " <- " ++ b.source.text)

end CompiledQuery

end EntityQuery
