import EntityQuery.Text.CharClass
import EntityQuery.Token.Basic
import EntityQuery.Error

/-!
# Scanning query text

A `Scanner` walks a query text one token at a time. Between tokens it skips Unicode white
space and the transparent pair `@@`. At a token it takes the longest match of:

* a name: a letter, `_` or `$`, then letters, digits, `_` or `$`; `true`, `false` and `null`
  in any ASCII case are literals, reserved words are keywords;
* a number: ASCII digits, a fraction only where a digit follows the point, an exponent
  whose digits are required, and a suffix `F`/`D` (a decimal) or `L` (a long integer);
* a string in single quotes, where a doubled quote stays inside;
* a parameter: `?` with or without digits, or `:` followed by a name;
* an operator or punctuation mark.

Each step records where its token starts, so that `Scanner.lexeme` is the text of the last
token. A bare `?` and a `:name` both count towards the automatic numbering of parameters,
and a bare `?` takes the next number. A failed step reports its cause with the text read so
far and the offset of the token it was in.
-/

namespace EntityQuery

namespace Scan

/-- Whether a character may start a name. -/
def isNameStart (c : Char) : Bool :=
  CharClass.isLetter c || c = '_' || c = '$'

/-- Whether a character may continue a name. -/
def isNamePart (c : Char) : Bool :=
  CharClass.isLetterOrDigit c || c = '_' || c = '$'

/-- The number of characters skipped before the next token: white space and `@@` pairs. -/
def gapLength : List Char → Nat
  | [] => 0
  | c :: rest =>
    if CharClass.isBlank c then gapLength rest + 1
    else
      match c, rest with
      | '@', '@' :: more => gapLength more + 2
      | _, _ => 0

/-- The length of a quoted string after its opening quote, through its closing quote; a
doubled quote stays inside. `none` when the text ends before the closing quote. -/
def quotedLength : List Char → Option Nat
  | [] => none
  | '\'' :: '\'' :: rest => (quotedLength rest).map (· + 2)
  | '\'' :: _ => some 1
  | _ :: rest => (quotedLength rest).map (· + 1)

/-- What a scan step found at the head of the input: a token and the number of characters
it spans, or a cause of failure and the number of characters read before it. -/
inductive Step where
  | token (t : Token) (length : Nat)
  | failure (r : Reason) (length : Nat)

/-- How a character is named in a message: in quotes, or `end of query` when there is none. -/
def describeChar : List Char → String
  | [] => "end of query"
  | c :: _ => "'" ++ String.singleton c ++ "'"

/-- The largest integer literal is that of a signed 64-bit word. -/
def integerBound : Nat := Nat.pow 2 63

/-- Parameter numbers are 32-bit words. -/
def parameterBound : Nat := Nat.pow 2 32

/-- Scan a number at the head of `cs`, which starts with an ASCII digit. -/
def number (cs : List Char) : Step :=
  let (whole, afterWhole) := cs.span Decimal.isDigit
  let (frac, afterFrac) : Option (List Char) × List Char :=
    match afterWhole with
    | '.' :: d :: more =>
      if Decimal.isDigit d then
        let (f, r) := (d :: more).span Decimal.isDigit
        (some f, r)
      else (none, afterWhole)
    | _ => (none, afterWhole)
  let fracText := match frac with
    | some f => '.' :: f
    | none => []
  let exponent : Except Nat (Option (List Char) × List Char) :=
    match afterFrac with
    | e :: r =>
      if e = 'e' || e = 'E' then
        let (sign, digitsAt) : List Char × List Char := match r with
          | '+' :: more => (['+'], more)
          | '-' :: more => (['-'], more)
          | _ => ([], r)
        match digitsAt with
        | d :: _ =>
          if Decimal.isDigit d then
            let (ds, r') := digitsAt.span Decimal.isDigit
            .ok (some (sign ++ ds), r')
          else .error (whole.length + fracText.length + 1 + sign.length)
        | [] => .error (whole.length + fracText.length + 1 + sign.length)
      else .ok (none, afterFrac)
    | [] => .ok (none, afterFrac)
  match exponent with
  | .error read =>
    .failure (.exponentNeedsDigits (describeChar (cs.drop read))) read
  | .ok (exp, afterExp) =>
    let expText := match exp with
      | some e => 'e' :: e
      | none => []
    let text := whole ++ fracText ++ expText
    let isDecimal := frac.isSome || exp.isSome
    let (suffix, isDecimal, isLong) : Nat × Bool × Bool :=
      match afterExp with
      | c :: _ =>
        if c = 'F' || c = 'f' || c = 'D' || c = 'd' then (1, true, false)
        else if (c = 'L' || c = 'l') && !isDecimal then (1, false, true)
        else (0, isDecimal, false)
      | [] => (0, isDecimal, false)
    let length := text.length + suffix
    let outOfRange := Step.failure (.numberOutOfRange (String.ofList text)) length
    if isDecimal then
      let value := if exp.isSome then Decimal.ofScientific? text else Decimal.ofPlain? text
      match value with
      | some d => .token (.double d) length
      | none => outOfRange
    else
      let n := Decimal.natOfDigits whole
      if n < integerBound then
        .token (if isLong then .long n else .integer n) length
      else outOfRange

/-- Scan a positional parameter at the head of `cs`, which starts with `?`; `counter` is
the number the automatic numbering has reached. The counter is 32 bits wide and wraps, so a
bare `?` after `2 ^ 32 - 1` counted parameters is numbered 0. -/
def positional (counter : UInt32) (cs : List Char) : Step :=
  let ds := (cs.drop 1).takeWhile Decimal.isDigit
  if ds.isEmpty then .token (.positional (counter + 1).toNat) 1
  else
    let n := Decimal.natOfDigits ds
    let text := "?" ++ String.ofList ds
    if parameterBound ≤ n then .failure (.numberOutOfRange text) (ds.length + 1)
    else if n = 0 then .failure (.nonPositiveArgument text) (ds.length + 1)
    else .token (.positional n) (ds.length + 1)

/-- The token a name stands for: a boolean or null literal, a keyword, or an identifier. -/
def classifyName (name : String) : Token :=
  if asciiEqIgnoreCase name "true" then .boolean true
  else if asciiEqIgnoreCase name "false" then .boolean false
  else if asciiEqIgnoreCase name "null" then .null
  else match Keyword.lookup? name with
    | some k => .keyword k
    | none => .identifier name

/-- Scan the token at the head of `cs`, which does not start with white space; `counter`
is the number the automatic numbering of parameters has reached. -/
def token (counter : UInt32) (cs : List Char) : Step :=
  match cs with
  | [] => .token .eof 0
  | '(' :: _ => .token .lparen 1
  | ')' :: _ => .token .rparen 1
  | '.' :: _ => .token .dot 1
  | ',' :: _ => .token .comma 1
  | '+' :: _ => .token .plus 1
  | '-' :: _ => .token .minus 1
  | '*' :: _ => .token .star 1
  | '/' :: _ => .token .slash 1
  | '=' :: _ => .token .eq 1
  | '<' :: '=' :: _ => .token .ltEq 2
  | '<' :: '>' :: _ => .token .notEq 2
  | '<' :: _ => .token .lt 1
  | '>' :: '=' :: _ => .token .gtEq 2
  | '>' :: _ => .token .gt 1
  | '!' :: '=' :: _ => .token .notEq 2
  | '|' :: '|' :: _ => .token .concat 2
  | '?' :: _ => positional counter cs
  | ':' :: c :: more =>
    if isNameStart c then
      let name := (c :: more).takeWhile isNamePart
      .token (.named (String.ofList name)) (name.length + 1)
    else .failure (.unexpectedCharacter "':'") 1
  | '\'' :: more =>
    match quotedLength more with
    | some n => .token (.string (String.ofList (cs.take (n + 1)))) (n + 1)
    | none => .failure .unterminatedString cs.length
  | c :: _ =>
    if Decimal.isDigit c then number cs
    else if isNameStart c then
      let name := cs.takeWhile isNamePart
      .token (classifyName (String.ofList name)) name.length
    else .failure (.unexpectedCharacter ("'" ++ String.singleton c ++ "'")) 1

/-- Whether a token takes a number of the automatic numbering: a bare `?` or a `:name`. -/
def countsParameter : Token → Nat → Bool
  | .named _, _ => true
  | .positional _, 1 => true
  | _, _ => false

end Scan

/-- The state of a scan: the query text, the unread rest of it and its offset, the offset of
the last token, and the count of automatically numbered parameters so far, a 32-bit counter
that wraps. -/
structure Scanner where
  query : String
  source : List Char
  rest : List Char
  pos : Nat
  start : Nat
  params : UInt32

/-- A token with its character offset and its text as written. -/
structure Lexeme where
  token : Token
  start : Nat
  text : String
  deriving DecidableEq, Repr

namespace Scanner

/-- A scan at the start of `query`. -/
def ofString (query : String) : Scanner :=
  { query, source := query.toList, rest := query.toList, pos := 0, start := 0, params := 0 }

/-- The text of the last token, as written. -/
def lexeme (s : Scanner) : String :=
  String.ofList ((s.source.drop s.start).take (s.pos - s.start))

/-- Pass over `n` characters. -/
def advance (s : Scanner) (n : Nat) : Scanner :=
  { s with rest := s.rest.drop n, pos := s.pos + n }

/-- Scan the next token. At the end of the text this is `eof`, and the scan stays there. -/
def next (s : Scanner) : Except CompileError (Token × Scanner) :=
  let gap := Scan.gapLength s.rest
  let s := { s.advance gap with start := s.pos + gap }
  match Scan.token s.params s.rest with
  | .token t n =>
    let params : UInt32 := if Scan.countsParameter t n then s.params + 1 else s.params
    .ok (t, { s.advance n with params })
  | .failure r n =>
    let s := s.advance n
    .error { reason := r, token := some s.lexeme, position := some s.start, query := s.query }

/-- Scan up to `fuel` tokens, keeping each with its offset and text. The list ends with the
end-of-text token unless a step fails, in which case it holds the tokens before the failure.
Every token other than the last spans at least one character, so `source.length + 1` steps
reach the end. -/
def lexemes : Nat → Scanner → List Lexeme × Option CompileError
  | 0, _ => ([], none)
  | fuel + 1, s =>
    match s.next with
    | .error e => ([], some e)
    | .ok (t, s') =>
      let here : Lexeme := { token := t, start := s'.start, text := s'.lexeme }
      if t = .eof then ([here], none)
      else
        let (more, failure) := lexemes fuel s'
        (here :: more, failure)

end Scanner

/-- Scan a whole query text into its tokens with offsets and texts, ending with the end of
the text; or the tokens before a failure, and the failure. -/
def scanText (query : String) : List Lexeme × Option CompileError :=
  Scanner.lexemes (query.length + 1) (Scanner.ofString query)

/-- The tokens of a query text, without the end of the text, or the first failure. -/
def tokenize (query : String) : Except CompileError (List Token) :=
  match scanText query with
  | (ls, none) => .ok ((ls.map (·.token)).filter (· ≠ .eof))
  | (_, some e) => .error e

end EntityQuery
