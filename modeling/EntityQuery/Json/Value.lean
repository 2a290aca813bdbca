/-!
# JSON values and their text

`JsonValue` is a JSON document whose objects keep their keys in the order given, and whose
numbers are natural numbers, which is all that the output of the compiler holds.

`JsonValue.compact` writes it without any spaces. `JsonValue.pretty` puts each member of a
non-empty array or object on a line of its own, indented by two spaces per level, with `": "`
after a key; empty arrays and objects stay `[]` and `{}`. In strings, the quote, the
backslash and the control characters are escaped, the latter by their short escapes where
JSON has one and as `\u00XX` in lower-case hexadecimal otherwise; every other character
stands for itself.
-/

namespace EntityQuery

/-- A JSON document with ordered object members and natural numbers. -/
inductive JsonValue where
  | null
  | bool (b : Bool)
  | nat (n : Nat)
  | str (s : String)
  | arr (items : List JsonValue)
  | obj (members : List (String × JsonValue))
  deriving Repr, Inhabited

namespace JsonValue

/-- A string value, or null. -/
def ofOption : Option String → JsonValue
  | some s => .str s
  | none => .null

/-- The hexadecimal digit of a number below 16, in lower case. -/
def hexDigit (n : Nat) : Char :=
  if n < 10 then Char.ofNat (48 + n) else Char.ofNat (87 + n)

/-- A character inside a JSON string. -/
def escapeChar (c : Char) : String :=
  match c with
  | '"' => "\\\""
  | '\\' => "\\\\"
  | '\n' => "\\n"
  | '\r' => "\\r"
  | '\t' => "\\t"
  | '\x08' => "\\b"
  | '\x0c' => "\\f"
  | c =>
    if c.toNat < 0x20 then
      "\\u00" ++ (hexDigit (c.toNat / 16)).toString ++ (hexDigit (c.toNat % 16)).toString
    else c.toString

/-- A JSON string literal. -/
def quote (s : String) : String :=
  "\"" ++ String.join (s.toList.map escapeChar) ++ "\""

mutual

/-- The text of a value without spaces. -/
def compact : JsonValue → String
  | .null => "null"
  | .bool b => if b then "true" else "false"
  | .nat n => toString n
  | .str s => quote s
  | .arr items => "[" ++ compactItems items ++ "]"
  | .obj members => "\x7b" ++ compactMembers members ++ "\x7d"

/-- The items of an array, separated by commas. -/
def compactItems : List JsonValue → String
  | [] => ""
  | [v] => compact v
  | v :: rest => compact v ++ "," ++ compactItems rest

/-- The members of an object, separated by commas. -/
def compactMembers : List (String × JsonValue) → String
  | [] => ""
  | [(k, v)] => quote k ++ ":" ++ compact v
  | (k, v) :: rest => quote k ++ ":" ++ compact v ++ "," ++ compactMembers rest

end

/-- Two spaces per level. -/
def indent (level : Nat) : String := String.ofList (List.replicate (2 * level) ' ')

mutual

/-- The text of a value at nesting `level`, one member per line. -/
def pretty (level : Nat) : JsonValue → String
  | .arr [] => "[]"
  | .obj [] => "\x7b\x7d"
  | .arr items => "[\n" ++ prettyItems (level + 1) items ++ "\n" ++ indent level ++ "]"
  | .obj members => "\x7b\n" ++ prettyMembers (level + 1) members ++ "\n" ++ indent level ++ "\x7d"
  | v => compact v

/-- The items of an array, each on its own line at `level`. -/
def prettyItems (level : Nat) : List JsonValue → String
  | [] => ""
  | [v] => indent level ++ pretty level v
  | v :: rest => indent level ++ pretty level v ++ ",\n" ++ prettyItems level rest

/-- The members of an object, each on its own line at `level`. -/
def prettyMembers (level : Nat) : List (String × JsonValue) → String
  | [] => ""
  | [(k, v)] => indent level ++ quote k ++ ": " ++ pretty level v
  | (k, v) :: rest => indent level ++ quote k ++ ": " ++ pretty level v ++ ",\n" ++ prettyMembers level rest

end

end JsonValue

end EntityQuery
