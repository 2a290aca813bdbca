import EntityQuery.Text.Decimal

/-!
# Tokens

The words and symbols of the query language. A `Keyword` is a reserved word, matched without
regard to ASCII case; `Keyword.lookup?` finds the keyword a word spells. A `Token` carries
what the scanner read: numbers as values, a quoted string as written (quotes and doubled
quotes kept), parameters by number or name.

`Token.text` is the token as it is named in messages: keywords in upper case, `!=` as `<>`,
decimals with their scale, and the end of the input as `end of query`. `Token.describe`
quotes that text, except for the end of the input.
-/

namespace EntityQuery

/-- ASCII case-insensitive equality: letters `A` to `Z` match their lower case, every other
character only itself. -/
def asciiEqIgnoreCase (a b : String) : Bool :=
  a.toList.map Char.toLower == b.toList.map Char.toLower

/-- The reserved words of the query language. `limit`, `offset`, `this` and `unknown` are
reserved without a rule of the grammar that accepts them. -/
inductive Keyword where
  | as | «from» | «in» | select | update | delete | set | distinct | «where» | order
  | group | «by» | having | asc | desc | limit | offset | join | inner | left | outer
  | fetch | or | and | not | length | locate | abs | sqrt | mod | size | concat | lower
  | upper | substring | trim | currentDate | currentTime | currentTimestamp | between
  | like | escape | is | new | «this» | unknown | empty | member | of
  deriving DecidableEq, Repr

namespace Keyword

/-- Every keyword, in the order of the reserved-word table. -/
def all : List Keyword :=
  [.as, .«from», .«in», .select, .update, .delete, .set, .distinct, .«where», .order,
   .group, .«by», .having, .asc, .desc, .limit, .offset, .join, .inner, .left, .outer,
   .fetch, .or, .and, .not, .length, .locate, .abs, .sqrt, .mod, .size, .concat, .lower,
   .upper, .substring, .trim, .currentDate, .currentTime, .currentTimestamp, .between,
   .like, .escape, .is, .new, .«this», .unknown, .empty, .member, .of]

/-- The keyword as written in upper case. -/
def spelling : Keyword → String
  | .as => "AS" | .«from» => "FROM" | .«in» => "IN" | .select => "SELECT"
  | .update => "UPDATE" | .delete => "DELETE" | .set => "SET" | .distinct => "DISTINCT"
  | .«where» => "WHERE" | .order => "ORDER" | .group => "GROUP" | .«by» => "BY"
  | .having => "HAVING" | .asc => "ASC" | .desc => "DESC" | .limit => "LIMIT"
  | .offset => "OFFSET" | .join => "JOIN" | .inner => "INNER" | .left => "LEFT"
  | .outer => "OUTER" | .fetch => "FETCH" | .or => "OR" | .and => "AND" | .not => "NOT"
  | .length => "LENGTH" | .locate => "LOCATE" | .abs => "ABS" | .sqrt => "SQRT"
  | .mod => "MOD" | .size => "SIZE" | .concat => "CONCAT" | .lower => "LOWER"
  | .upper => "UPPER" | .substring => "SUBSTRING" | .trim => "TRIM"
  | .currentDate => "CURRENT_DATE" | .currentTime => "CURRENT_TIME"
  | .currentTimestamp => "CURRENT_TIMESTAMP" | .between => "BETWEEN" | .like => "LIKE"
  | .escape => "ESCAPE" | .is => "IS" | .new => "NEW" | .«this» => "THIS"
  | .unknown => "UNKNOWN" | .empty => "EMPTY" | .member => "MEMBER" | .of => "OF"

/-- The keyword's name in a token listing: the word in title case, parts joined. -/
def title : Keyword → String
  | .as => "As" | .«from» => "From" | .«in» => "In" | .select => "Select"
  | .update => "Update" | .delete => "Delete" | .set => "Set" | .distinct => "Distinct"
  | .«where» => "Where" | .order => "Order" | .group => "Group" | .«by» => "By"
  | .having => "Having" | .asc => "Asc" | .desc => "Desc" | .limit => "Limit"
  | .offset => "Offset" | .join => "Join" | .inner => "Inner" | .left => "Left"
  | .outer => "Outer" | .fetch => "Fetch" | .or => "Or" | .and => "And" | .not => "Not"
  | .length => "Length" | .locate => "Locate" | .abs => "Abs" | .sqrt => "Sqrt"
  | .mod => "Mod" | .size => "Size" | .concat => "Concat" | .lower => "Lower"
  | .upper => "Upper" | .substring => "Substring" | .trim => "Trim"
  | .currentDate => "CurrentDate" | .currentTime => "CurrentTime"
  | .currentTimestamp => "CurrentTimestamp" | .between => "Between" | .like => "Like"
  | .escape => "Escape" | .is => "Is" | .new => "New" | .«this» => "This"
  | .unknown => "Unknown" | .empty => "Empty" | .member => "Member" | .of => "Of"

/-- The keyword that `word` spells, ignoring ASCII case. -/
def lookup? (word : String) : Option Keyword :=
  all.find? (fun k => asciiEqIgnoreCase k.spelling word)

/-- The reserved words that name a built-in function when `(` follows. -/
def isFunction : Keyword → Bool
  | .length | .locate | .abs | .sqrt | .mod | .size | .concat | .lower | .upper
  | .substring | .trim => true
  | _ => false

end Keyword

/-- A token of the query language. Integer values are those of a signed 64-bit word that
the scanner can produce, so never negative; a parameter number is a positive 32-bit word. -/
inductive Token where
  | integer (n : Nat)
  | long (n : Nat)
  | double (d : Decimal)
  | string (lexeme : String)
  | boolean (b : Bool)
  | null
  | positional (n : Nat)
  | named (name : String)
  | identifier (name : String)
  | keyword (k : Keyword)
  | lparen | rparen | dot | comma
  | plus | minus | star | slash
  | eq | notEq | lt | ltEq | gt | gtEq | concat
  | eof
  deriving DecidableEq, Repr

namespace Token

/-- The token as named in messages. -/
def text : Token → String
  | .integer n => toString n
  | .long n => toString n ++ "L"
  | .double d => d.render
  | .string s => s
  | .boolean b => if b then "TRUE" else "FALSE"
  | .null => "NULL"
  | .positional n => "?" ++ toString n
  | .named name => ":" ++ name
  | .identifier name => name
  | .keyword k => k.spelling
  | .lparen => "(" | .rparen => ")" | .dot => "." | .comma => ","
  | .plus => "+" | .minus => "-" | .star => "*" | .slash => "/"
  | .eq => "=" | .notEq => "<>" | .lt => "<" | .ltEq => "<=" | .gt => ">" | .gtEq => ">="
  | .concat => "||"
  | .eof => "end of query"

/-- The token in a message about what was found: its text in quotes, or `end of query`. -/
def describe : Token → String
  | .eof => "end of query"
  | t => "'" ++ t.text ++ "'"

/-- The name of the token's kind. -/
def kindName : Token → String
  | .integer _ => "Integer" | .long _ => "Long" | .double _ => "Double"
  | .string _ => "String" | .boolean _ => "Boolean" | .null => "Null"
  | .positional _ => "Positional" | .named _ => "Named" | .identifier _ => "Identifier"
  | .keyword _ => "Keyword" | .lparen => "LParen" | .rparen => "RParen" | .dot => "Dot"
  | .comma => "Comma" | .plus => "Plus" | .minus => "Minus" | .star => "Star"
  | .slash => "Slash" | .eq => "Eq" | .notEq => "NotEq" | .lt => "Lt" | .ltEq => "LtEq"
  | .gt => "Gt" | .gtEq => "GtEq" | .concat => "Concat" | .eof => "Eof"

/-- Whether the token is the keyword `k`. -/
def isKeyword (t : Token) (k : Keyword) : Bool :=
  t == .keyword k

end Token

end EntityQuery
