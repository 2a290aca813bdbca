/-!
# Quoted SQL text

Two quoting rules of SQL text. A string literal is the value between single quotes, each
single quote inside written twice. An identifier is written part by part between its dots:
a plain part (an ASCII letter or `_`, then ASCII letters, digits, `_` or `$`) as it is, any
other part between double quotes, each double quote inside written twice.
-/

namespace EntityQuery.Sql

/-- The characters of `s` with every `q` written twice. -/
def doubling (q : Char) (s : String) : String :=
  String.ofList (s.toList.flatMap fun c => if c = q then [q, q] else [c])

/-- A string value as an SQL string literal. -/
def quoteString (value : String) : String :=
  "'" ++ doubling '\'' value ++ "'"

/-- Whether a character may start a plain identifier part. -/
def isPlainStart (c : Char) : Bool :=
  ('A' ≤ c && c ≤ 'Z') || ('a' ≤ c && c ≤ 'z') || c = '_'

/-- Whether a character may continue a plain identifier part. -/
def isPlainPart (c : Char) : Bool :=
  isPlainStart c || ('0' ≤ c && c ≤ '9') || c = '$'

/-- Whether an identifier part needs no quotes. -/
def isPlain (part : String) : Bool :=
  match part.toList with
  | c :: rest => isPlainStart c && rest.all isPlainPart
  | [] => false

/-- One identifier part, quoted unless it is plain. -/
def quotePart (part : String) : String :=
  if isPlain part then part else "\"" ++ doubling '"' part ++ "\""

/-- The parts of `cs` between its dots, `part` reversed being the part read so far; `n` dots
give `n + 1` parts, empty ones included. -/
def dotParts (part : List Char) : List Char → List String
  | [] => [String.ofList part.reverse]
  | '.' :: cs => String.ofList part.reverse :: dotParts [] cs
  | c :: cs => dotParts (c :: part) cs

/-- An identifier, quoted part by part between its dots. -/
def quoteIdentifier (name : String) : String :=
  ".".intercalate ((dotParts [] name.toList).map quotePart)

end EntityQuery.Sql
