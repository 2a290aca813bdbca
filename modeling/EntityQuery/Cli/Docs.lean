/-!
# Documentation pages

The pages the command line prints: an overview of the categories, and one page for each
category. A category is named case-insensitively, with `-` standing for `_`, by its name or
one of its other names.
-/

namespace EntityQuery

namespace Docs

/-- Text made of lines, each ended by a line feed. -/
def lines (ls : List String) : String := String.join (ls.map (· ++ "\n"))

/-- The overview: what the tool does, the categories, and sample queries. -/
def overview : String := lines [
  "EQL DOCUMENTATION",
  "",
  "eql compiles entity queries (SELECT, UPDATE, DELETE over entity and field",
  "names) into SQL plus a parameter binding plan.",
  "",
  "DOCUMENTATION CATEGORIES",
  "",
  "  syntax            Statement grammar and clause order",
  "  paths             Dotted paths, implicit joins, and collections",
  "  joins             FROM declarations, join elimination, and outer joins",
  "  functions         Built-in functions and aggregates",
  "  parameters        Positional and named parameters and their SQL ordinals",
  "  schema            The JSON schema document read by --schema",
  "",
  "QUICK REFERENCE",
  "",
  "  SELECT o FROM Order o WHERE o.total > ?1",
  "  SELECT o.customer.name FROM Order o",
  "  SELECT i FROM Order o, IN(o.items) i WHERE o.status = :status",
  "  UPDATE Employee e SET e.salary = e.salary * 1.1 WHERE e.department = :dept",
  "  DELETE FROM Order o WHERE o.items IS EMPTY",
  "",
  "Run 'eql doc <category>' for details."]

/-- The statements and their clauses. -/
def statementsPage : String := lines [
  "SYNTAX - Statements",
  "",
  "SELECT",
  "  SELECT [DISTINCT] items FROM declarations",
  "    [WHERE condition]",
  "    [GROUP BY values [HAVING condition]]",
  "    [ORDER BY value [ASC|DESC], ...]",
  "",
  "  An omitted select list loads the first declared entity:",
  "    FROM Order o          is      SELECT o FROM Order o",
  "",
  "  SELECT NEW com.acme.Summary(o.id, o.total) FROM Order o",
  "    Rows are passed to the named class. The name must be qualified.",
  "",
  "  A query without FROM may only select CURRENT_DATE, CURRENT_TIME,",
  "  CURRENT_TIMESTAMP or literals.",
  "",
  "UPDATE",
  "  UPDATE Entity alias SET field = value [, alias.field = value] [WHERE condition]",
  "",
  "DELETE",
  "  DELETE [FROM] Entity alias [WHERE condition]",
  "",
  "  UPDATE and DELETE address a single table. Conditions that navigate to",
  "  other entities are rendered as EXISTS (SELECT 1 FROM ...) against that",
  "  table. Navigation that would need an outer join, or a SET value read from",
  "  another table, is an error.",
  "",
  "CONDITIONS",
  "  =  <>  !=  <  <=  >  >=",
  "  x [NOT] BETWEEN a AND b",
  "  x [NOT] LIKE 'pattern' [ESCAPE 'c']",
  "  x [NOT] IN (a, b, ...)          x [NOT] IN (SELECT ...)",
  "  x IS [NOT] NULL",
  "  collection IS [NOT] EMPTY",
  "  entity [NOT] MEMBER [OF] collection",
  "  EXISTS (SELECT ...)   x > ALL (SELECT ...)   x = ANY|SOME (SELECT ...)",
  "  NOT, AND, OR",
  "",
  "Keywords are case-insensitive. Strings use single quotes; '' is a quote."]

/-- Paths through relationships, and collections. -/
def pathsPage : String := lines [
  "PATHS - Navigating Relationships",
  "",
  "  o.total                 column of the entity bound to o",
  "  o.customer              the Customer entity (compared by identity)",
  "  o.customer.name         column reached through an implicit join",
  "  total                   unqualified names resolve against the first declaration",
  "",
  "IMPLICIT JOINS",
  "  Every to-one step joins the target table. The same path used twice in one",
  "  query block shares one join.",
  "",
  "COLLECTIONS",
  "  One-to-many and many-to-many fields are not joined by expressions. They",
  "  are only valid in:",
  "",
  "    o.items IS [NOT] EMPTY          [NOT] EXISTS (SELECT 1 FROM ...)",
  "    SIZE(o.items)                   (SELECT COUNT(*) FROM ...)",
  "    p MEMBER OF o.items             EXISTS (SELECT 1 FROM ... AND ...)",
  "",
  "  To range over a collection, declare it in FROM (see 'eql doc joins')."]

/-- FROM declarations, join elimination and outer joins. -/
def joinsPage : String := lines [
  "JOINS - FROM Declarations",
  "",
  "  FROM Order o, Customer c              two roots",
  "  FROM Order o, IN(o.items) i           collection member, inner join",
  "  FROM Order o JOIN o.items i           inner join",
  "  FROM Order o LEFT JOIN o.customer c   outer join",
  "  FROM Order o JOIN FETCH o.customer    eager load; columns follow the results",
  "",
  "  A fetched association must belong to an entity named in the select list:",
  "  SELECT o FROM Order o JOIN FETCH o.customer",
  "",
  "ELIMINATION",
  "  A joined table only used through the key its parent already stores is",
  "  removed:",
  "",
  "    SELECT o FROM Order o, o.customer c WHERE c.id = ?1",
  "    -> ... FROM orders o WHERE o.customer_id IS NOT NULL AND o.customer_id = ?",
  "",
  "OUTER JOIN INFERENCE",
  "  An implicit join is inner only when a top-level WHERE condition requires",
  "  the joined row, e.g. o.customer.name = ?1. Otherwise it is a",
  "  LEFT OUTER JOIN, so SELECT o.customer.name FROM Order o keeps orders",
  "  without a customer."]

/-- The functions a query may call. -/
def functionsPage : String := lines [
  "FUNCTIONS",
  "",
  "STRING",
  "  CONCAT(a, b, ...)       rendered as (a || b || ...)",
  "  SUBSTRING(s, start [, length])",
  "  TRIM([LEADING|TRAILING|BOTH] [c] FROM s)",
  "  LOWER(s)   UPPER(s)   LENGTH(s)",
  "  LOCATE(needle, s [, start])   1-based position, 0 when absent",
  "",
  "NUMERIC",
  "  ABS(x)   SQRT(x)   MOD(a, b)",
  "",
  "DATE AND TIME",
  "  CURRENT_DATE   CURRENT_TIME   CURRENT_TIMESTAMP",
  "",
  "COLLECTIONS",
  "  SIZE(collection)",
  "",
  "OTHER",
  "  OBJECT(alias)           same as selecting the alias",
  "  Any other name(args) is passed through, with optional DISTINCT:",
  "  COUNT(*)   COUNT(DISTINCT o)   SUM(x)   AVG(x)   MIN(x)   MAX(x)"]

/-- Positional and named parameters and their SQL ordinals. -/
def parametersPage : String := lines [
  "PARAMETERS",
  "",
  "  ?1, ?2        positional, 1-based",
  "  ?             positional, numbered automatically",
  "  :name         named",
  "",
  "A query uses either positional or named parameters, not both.",
  "",
  "Every parameter occurrence becomes one ? in the SQL. The compiled query",
  "lists, for each ?, the parameter it binds and its SQL ordinal:",
  "",
  "  SELECT o FROM Order o WHERE o.total > :min OR o.status = :min",
  "  -- 1 <- :min",
  "  -- 2 <- :min"]

/-- The schema document. -/
def schemaPage : String := lines [
  "SCHEMA - The --schema Document",
  "",
  "\x7b",
  "  \"entities\": [",
  "    \x7b",
  "      \"name\": \"Order\",",
  "      \"table\": \x7b \"name\": \"orders\", \"cache_timeout_ms\": 1000, \"read_only\": false \x7d,",
  "      \"id\": [\"id\"],",
  "      \"fields\": [",
  "        \x7b \"name\": \"id\", \"kind\": \"column\", \"column\": \"id\" \x7d,",
  "        \x7b \"name\": \"customer\", \"kind\": \"many_to_one\",",
  "          \"target\": \"Customer\", \"columns\": [\"customer_id\"] \x7d,",
  "        \x7b \"name\": \"items\", \"kind\": \"one_to_many\",",
  "          \"target\": \"LineItem\", \"columns\": [\"order_id\"] \x7d,",
  "        \x7b \"name\": \"tags\", \"kind\": \"many_to_many\", \"target\": \"Tag\",",
  "          \"association\": \x7b \"name\": \"order_tags\" \x7d,",
  "          \"source_columns\": [\"order_id\"], \"target_columns\": [\"tag_id\"] \x7d",
  "      ],",
  "      \"discriminator\": \x7b \"column\": \"kind\", \"value\": \"standard\" \x7d",
  "    \x7d",
  "  ],",
  "  \"classes\": [\"com.acme.Summary\"]",
  "\x7d",
  "",
  "  cache_timeout_ms    defaults to 250",
  "  read_only           defaults to false",
  "  discriminator       optional; adds alias.column = 'value' to every use",
  "  classes             optional; when present, SELECT NEW must name one"]

/-- The categories of documentation. -/
inductive Category where
  | statements | paths | joins | functions | parameters | schema
  deriving DecidableEq, Repr

/-- Lower-case the ASCII letters. No other character lower-cases to a letter of a category
name except the Kelvin sign, whose letter no name holds. -/
def lowerAscii (s : String) : String := s.map Char.toLower

/-- The category a name stands for. -/
def Category.parse? (name : String) : Option Category :=
  match (lowerAscii name).replace "-" "_" with
  | "syntax" | "grammar" => some .statements
  | "paths" | "path" => some .paths
  | "joins" | "join" => some .joins
  | "functions" | "function" | "fn" => some .functions
  | "parameters" | "params" | "arguments" => some .parameters
  | "schema" | "schemas" => some .schema
  | _ => none

/-- The page of a category. -/
def Category.page : Category → String
  | .statements => statementsPage
  | .paths => pathsPage
  | .joins => joinsPage
  | .functions => functionsPage
  | .parameters => parametersPage
  | .schema => schemaPage

end Docs

end EntityQuery
