import EntityQuery.Text.Quoted
import EntityQuery.Token.Basic

/-!
# Token listings

The listing of a token names its kind and, in parentheses, what it carries: `Keyword(Select)`,
`Identifier("a")`, `Double(1.50)`, `Positional(3)`; tokens that carry nothing are their kind
alone, such as `LParen`. Texts are written by `Quoted.quote`.
-/

namespace EntityQuery


/-- The listing of a token. -/
def Token.listing : Token → String
  | .integer n => "Integer(" ++ toString n ++ ")"
  | .long n => "Long(" ++ toString n ++ ")"
  | .double d => "Double(" ++ d.render ++ ")"
  | .string s => "String(" ++ Quoted.quote s ++ ")"
  | .boolean b => "Boolean(" ++ (if b then "true" else "false") ++ ")"
  | .positional n => "Positional(" ++ toString n ++ ")"
  | .named name => "Named(" ++ Quoted.quote name ++ ")"
  | .identifier name => "Identifier(" ++ Quoted.quote name ++ ")"
  | .keyword k => "Keyword(" ++ k.title ++ ")"
  | t => t.kindName

end EntityQuery
