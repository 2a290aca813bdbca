import EntityQuery.Text.Quoted
import EntityQuery.Text.Shortest

/-!
# Reading JSON text

A streaming reader of JSON text, byte by byte, that reports the first fault with its place:
the line, counted from 1, and the column, the number of bytes since the start of the line.
A fault found at a byte already read is placed after it; one found at the byte looked at is
placed one byte further, but not past the end of the text.

`Decode` is a step of reading: it reads the text, moves the offset of the next byte, and may
fail with a `Failure`. A failure keeps the offset it was found at, since a reader that fails
inside an object still passes over the rest of the object before it places a fault that has
no place yet. `Decode.placed` gives such a fault the present place.

Numbers are read as a natural number, the negation of a natural number below `2^63 + 1`, or a
double. A double is read as the double nearest to its first digits, up to the nineteen or
twenty that fit in an unsigned 64-bit word, then multiplied or divided by the double nearest
to the power of ten that the other digits and the exponent make, in steps of `10^308` for
larger powers. `Content` holds a value read whole, for the parts of a document read in two
steps.
-/

namespace EntityQuery

/-- A fault of JSON text, and its line and column once it has one. -/
structure Failure where
  message : String
  position : Option (Nat × Nat) := none
  deriving Repr, Inhabited

/-- The text of a fault: its message, then its place. -/
def Failure.text (f : Failure) : String :=
  match f.position with
  | some (line, column) => f.message ++ " at line " ++ toString line ++ " column " ++ toString column
  | none => f.message

/-- The faults of JSON syntax. -/
inductive SyntaxFault where
  | eofList | eofObject | eofString | eofValue
  | expectedColon | expectedListCommaOrEnd | expectedObjectCommaOrEnd
  | expectedIdent | expectedValue
  | invalidEscape | invalidNumber | numberOutOfRange
  | controlCharacter | keyMustBeString
  | loneLeadingSurrogate | unexpectedEndOfHexEscape
  | trailingComma | trailingCharacters | recursionLimit
  deriving DecidableEq, Repr

/-- The message of a syntax fault. -/
def SyntaxFault.message : SyntaxFault → String
  | .eofList => "EOF while parsing a list"
  | .eofObject => "EOF while parsing an object"
  | .eofString => "EOF while parsing a string"
  | .eofValue => "EOF while parsing a value"
  | .expectedColon => "expected `:`"
  | .expectedListCommaOrEnd => "expected `,` or `]`"
  | .expectedObjectCommaOrEnd => "expected `,` or `\x7d`"
  | .expectedIdent => "expected ident"
  | .expectedValue => "expected value"
  | .invalidEscape => "invalid escape"
  | .invalidNumber => "invalid number"
  | .numberOutOfRange => "number out of range"
  | .controlCharacter => "control character (\\u0000-\\u001F) found while parsing a string"
  | .keyMustBeString => "key must be a string"
  | .loneLeadingSurrogate => "lone leading surrogate in hex escape"
  | .unexpectedEndOfHexEscape => "unexpected end of hex escape"
  | .trailingComma => "trailing comma"
  | .trailingCharacters => "trailing characters"
  | .recursionLimit => "recursion limit exceeded"

/-- A number as read: natural, negative (the negation of the value held), or a double. -/
inductive Number where
  | unsigned (n : Nat)
  | negative (n : Nat)
  | double (x : Float)
  deriving Inhabited

/-- A JSON value read whole. -/
inductive Content where
  | null
  | bool (b : Bool)
  | number (n : Number)
  | str (s : String)
  | seq (items : List Content)
  | map (entries : List (String × Content))
  deriving Inhabited

/-- How a value that was not wanted is named in a message. -/
def Number.unexpected : Number → String
  | .unsigned n => "integer `" ++ toString n ++ "`"
  | .negative n => "integer `-" ++ toString n ++ "`"
  | .double x => "floating point `" ++ Double.toText x ++ "`"

/-- How a value that was not wanted is named in a message. -/
def Content.unexpected : Content → String
  | .null => "null"
  | .bool b => "boolean `" ++ (if b then "true" else "false") ++ "`"
  | .number n => n.unexpected
  | .str s => "string " ++ Quoted.quote s
  | .seq _ => "sequence"
  | .map _ => "map"

/-- The message for a value of the wrong type. -/
def invalidType (unexpected expected : String) : String :=
  "invalid type: " ++ unexpected ++ ", expected " ++ expected

/-- The message for a value of the right type out of its range. -/
def invalidValue (unexpected expected : String) : String :=
  "invalid value: " ++ unexpected ++ ", expected " ++ expected

/-- A step of reading JSON text. -/
abbrev Decode := ReaderT ByteArray (ExceptT Failure (StateM Nat))

namespace Decode

/-- The line and column of a byte offset. -/
def positionOf (input : ByteArray) (i : Nat) : Nat × Nat :=
  let (line, lineStart) := ((List.range (min i input.size)).foldl (fun (acc : Nat × Nat) j =>
    if input[j]! == 10 then (acc.1 + 1, j + 1) else acc) (1, 0))
  (line, i - lineStart)

/-- Fail with `message` at the present offset. -/
def failHere {α : Type} (message : String) : Decode α := do
  throw { message, position := some (positionOf (← read) (← get)) }

/-- Fail with a syntax fault at the present offset. -/
def error {α : Type} (f : SyntaxFault) : Decode α := failHere f.message

/-- Fail with a syntax fault one byte after the present offset. -/
def peekError {α : Type} (f : SyntaxFault) : Decode α := do
  let input ← read
  throw { message := f.message, position := some (positionOf input (min input.size ((← get) + 1))) }

/-- Fail with a fault that has no place yet. -/
def fault {α : Type} (message : String) : Decode α := throw { message }

/-- Give a fault without a place the present place. -/
def placed {α : Type} (m : Decode α) : Decode α :=
  tryCatch m fun f => do
    match f.position with
    | some _ => throw f
    | none => failHere f.message

/-- Run `m` and give back its outcome, keeping the offset it stopped at. -/
def attempt {α : Type} (m : Decode α) : Decode (Except Failure α) :=
  tryCatch (Except.ok <$> m) fun f => pure (.error f)

/-- The byte at the present offset. -/
def peek? : Decode (Option UInt8) := do
  return (← read)[← get]?

/-- The byte at the present offset, or zero at the end. -/
def peekOrNull : Decode UInt8 := do
  return (← peek?).getD 0

/-- Pass over one byte. -/
def eat : Decode Unit := modify (· + 1)

/-- Take the byte at the present offset. -/
def next? : Decode (Option UInt8) := do
  let b ← peek?
  if b.isSome then eat
  pure b

/-- An upper bound on the steps left: each step passes over at least one byte. -/
def remaining : Decode Nat := do
  return (← read).size - (← get) + 1

/-- Whether a byte is an ASCII digit. -/
def isDigit (b : UInt8) : Bool := 48 ≤ b && b ≤ 57

/-- The value of an ASCII digit. -/
def digit (b : UInt8) : Nat := b.toNat - 48

/-- Pass over spaces, tabs, line feeds and carriage returns; the byte after them. -/
def skipWhitespace : Decode (Option UInt8) := do
  go (← remaining)
where
  /-- At most `fuel` more bytes. -/
  go : Nat → Decode (Option UInt8)
    | 0 => peek?
    | fuel + 1 => do
      match ← peek? with
      | some b => if b == 32 || b == 10 || b == 9 || b == 13 then eat; go fuel else pure (some b)
      | none => pure none

/-- Read the rest of a word whose first byte was taken. -/
def ident (rest : List UInt8) : Decode Unit := do
  for expected in rest do
    match ← next? with
    | none => error .eofValue
    | some b => if b != expected then error .expectedIdent

/-- The value of four hexadecimal digits. -/
def hexValue (bs : List UInt8) : Option Nat :=
  bs.foldlM (fun acc b =>
    if isDigit b then some (acc * 16 + digit b)
    else if 97 ≤ b && b ≤ 102 then some (acc * 16 + b.toNat - 87)
    else if 65 ≤ b && b ≤ 70 then some (acc * 16 + b.toNat - 55)
    else none) 0

/-- Take the four hexadecimal digits of a `\u` escape. -/
def hexEscape : Decode Nat := do
  let input ← read
  let i ← get
  if i + 4 ≤ input.size then
    set (i + 4)
    match hexValue ((List.range 4).map fun k => input[i + k]!) with
    | some n => pure n
    | none => error .invalidEscape
  else
    set input.size
    error .eofString

/-- The UTF-8 bytes of a code point. -/
def utf8 (n : Nat) : ByteArray := (String.singleton (Char.ofNat n)).toUTF8

/-- The code point of a `\u` escape whose `\u` was taken; a leading surrogate must be
followed by the escape of a trailing one. -/
def unicodeEscape : Decode ByteArray := do
  let n ← hexEscape
  if 0xDC00 ≤ n && n ≤ 0xDFFF then error .loneLeadingSurrogate
  if n < 0xD800 || n > 0xDBFF then return utf8 n
  for expected in [92, 117] do
    match ← peek? with
    | none => error .eofString
    | some b =>
      eat
      if b != expected then error .unexpectedEndOfHexEscape
  let n2 ← hexEscape
  if n2 < 0xDC00 || n2 > 0xDFFF then error .loneLeadingSurrogate
  pure (utf8 (((n - 0xD800) * 1024 + (n2 - 0xDC00)) + 0x10000))

/-- The bytes an escape stands for, its backslash taken. -/
def escape : Decode ByteArray := do
  match ← next? with
  | none => error .eofString
  | some c =>
    match c.toNat with
    | 34 => pure (ByteArray.empty.push 34)
    | 92 => pure (ByteArray.empty.push 92)
    | 47 => pure (ByteArray.empty.push 47)
    | 98 => pure (ByteArray.empty.push 8)
    | 102 => pure (ByteArray.empty.push 12)
    | 110 => pure (ByteArray.empty.push 10)
    | 114 => pure (ByteArray.empty.push 13)
    | 116 => pure (ByteArray.empty.push 9)
    | 117 => unicodeEscape
    | _ => error .invalidEscape

/-- Read a string whose opening quote was taken. Control characters are refused. -/
def string : Decode String := do
  let bytes ← go (← remaining) ByteArray.empty
  pure ((String.fromUTF8? bytes).getD "")
where
  /-- At most `fuel` more bytes, after the bytes `acc`. -/
  go : Nat → ByteArray → Decode ByteArray
    | 0, acc => pure acc
    | fuel + 1, acc => do
      match ← next? with
      | none => error .eofString
      | some b =>
        if b == 34 then pure acc
        else if b == 92 then go fuel (acc ++ (← escape))
        else if b < 32 then error .controlCharacter
        else go fuel (acc.push b)

/-- Pass over an escape whose backslash was taken, without reading its value. -/
def skipEscape : Decode Unit := do
  match ← next? with
  | none => error .eofString
  | some c =>
    if [34, 92, 47, 98, 102, 110, 114, 116].contains c.toNat then pure ()
    else if c == 117 then
      let _ ← hexEscape
    else error .invalidEscape

/-- Pass over a string whose opening quote was taken. A control character is refused where
it stands. -/
def skipString : Decode Unit := do
  go (← remaining)
where
  /-- At most `fuel` more bytes. -/
  go : Nat → Decode Unit
    | 0 => pure ()
    | fuel + 1 => do
      match ← peek? with
      | none => error .eofString
      | some b =>
        if b == 34 then eat
        else if b == 92 then
          eat
          skipEscape
          go fuel
        else if b < 32 then error .controlCharacter
        else
          eat
          go fuel

/-- The largest 32-bit signed integer. -/
def maxExponent : Int := 2147483647

/-- An exponent clamped to 32-bit signed integers. -/
def saturate (e : Int) : Int := max (-2147483648) (min maxExponent e)

/-- The double `significand · 10^exponent`, negated unless `positive`; powers beyond
`10^308` are divided out in steps, and a product beyond the largest double fails. -/
def doubleOfParts (positive : Bool) (significand : Nat) (exponent : Int) : Decode Float := do
  let f ← go (exponent.natAbs / 308 + 2) (Double.ofNat significand) exponent
  pure (if positive then f else -f)
where
  /-- At most `fuel` more steps. -/
  go : Nat → Float → Int → Decode Float
    | 0, f, _ => pure f
    | fuel + 1, f, e =>
      if e.natAbs ≤ 308 then
        let pow := Double.ofNat (Nat.pow 10 e.natAbs)
        if e ≥ 0 then
          let f := f * pow
          if f.isInf then error .numberOutOfRange else pure f
        else pure (f / pow)
      else if f == 0 then pure f
      else if e ≥ 0 then error .numberOutOfRange
      else go fuel (f / Double.ofNat (Nat.pow 10 308)) (e + 308)

/-- Pass over digits. -/
def skipDigits : Decode Unit := do
  go (← remaining)
where
  /-- At most `fuel` more bytes. -/
  go : Nat → Decode Unit
    | 0 => pure ()
    | fuel + 1 => do if isDigit (← peekOrNull) then eat; go fuel

/-- The exponent part of a number, its `e` looked at. An exponent too large for 32 bits
makes zero of a negative exponent or a zero significand, and fails otherwise. -/
def exponentPart (positive : Bool) (significand : Nat) (start : Int) : Decode Float := do
  eat
  let positiveExp ← match ← peekOrNull with
    | 43 => do eat; pure true
    | 45 => do eat; pure false
    | _ => pure true
  let first ← match ← next? with
    | none => error .eofValue
    | some b => if isDigit b then pure (digit b) else error .invalidNumber
  match ← go (← remaining) first with
  | some exp =>
    let final := if positiveExp then saturate (start + exp) else saturate (start - exp)
    doubleOfParts positive significand final
  | none =>
    if significand != 0 && positiveExp then error .numberOutOfRange
    skipDigits
    pure (if positive then 0 else -0)
where
  /-- The digits of the exponent after `exp`; none when they pass 32 bits. -/
  go : Nat → Nat → Decode (Option Nat)
    | 0, exp => pure (some exp)
    | fuel + 1, exp => do
      let b ← peekOrNull
      if isDigit b then
        eat
        let d := digit b
        if exp ≥ 214748364 && (exp > 214748364 || d > 7) then pure none
        else go fuel (exp * 10 + d)
      else pure (some exp)

/-- Whether appending the digit `d` to `s` passes the largest unsigned 64-bit word. -/
def overflows (s d : Nat) : Bool :=
  s ≥ 1844674407370955161 && (s > 1844674407370955161 || d > 5)

/-- The fraction part of a number, its point looked at, with `exponent` digits already
shifted; digits beyond 64 bits are passed over. -/
def fractionPart (positive : Bool) (significand : Nat) (exponent : Int) : Decode Float := do
  eat
  match ← go (← remaining) significand 0 with
  | (s, shift, true) =>
    if shift = 0 then
      match ← peek? with
      | some _ => peekError .invalidNumber
      | none => peekError .eofValue
    let e := exponent - shift
    let b ← peekOrNull
    if b == 101 || b == 69 then exponentPart positive s e else doubleOfParts positive s e
  | (s, shift, false) =>
    skipDigits
    let e := exponent - shift
    let b ← peekOrNull
    if b == 101 || b == 69 then exponentPart positive s e else doubleOfParts positive s e
where
  /-- The digits after `s`, `shift` of them read; false when a digit would pass 64 bits. -/
  go : Nat → Nat → Nat → Decode (Nat × Nat × Bool)
    | 0, s, shift => pure (s, shift, true)
    | fuel + 1, s, shift => do
      let b ← peekOrNull
      if isDigit b then
        if overflows s (digit b) then pure (s, shift, false)
        else
          eat
          go fuel (s * 10 + digit b) (shift + 1)
      else pure (s, shift, true)

/-- The rest of an integer whose digits passed 64 bits: the digits left count as a power of
ten. -/
def longInteger (positive : Bool) (significand : Nat) : Decode Float := do
  let extra ← go (← remaining) 0
  let b ← peekOrNull
  if b == 46 then fractionPart positive significand extra
  else if b == 101 || b == 69 then exponentPart positive significand extra
  else doubleOfParts positive significand extra
where
  /-- Count the digits left. -/
  go : Nat → Nat → Decode Nat
    | 0, n => pure n
    | fuel + 1, n => do if isDigit (← peekOrNull) then eat; go fuel (n + 1) else pure n

/-- A number after its integer digits `significand`. -/
def afterInteger (positive : Bool) (significand : Nat) : Decode Number := do
  let b ← peekOrNull
  if b == 46 then return .double (← fractionPart positive significand 0)
  if b == 101 || b == 69 then return .double (← exponentPart positive significand 0)
  if positive then pure (.unsigned significand)
  else if 1 ≤ significand && significand ≤ Nat.pow 2 63 then pure (.negative significand)
  else pure (.double (-(Double.ofNat significand)))

/-- A number, its sign taken. -/
def number (positive : Bool) : Decode Number := do
  match ← next? with
  | none => error .eofValue
  | some b =>
    if b == 48 then
      if isDigit (← peekOrNull) then peekError .invalidNumber
      afterInteger positive 0
    else if isDigit b then
      go (← remaining) (digit b)
    else error .invalidNumber
where
  /-- The integer digits after `s`. -/
  go : Nat → Nat → Decode Number
    | 0, s => afterInteger positive s
    | fuel + 1, s => do
      let b ← peekOrNull
      if isDigit b then
        if overflows s (digit b) then return .double (← longInteger positive s)
        eat
        go fuel (s * 10 + digit b)
      else afterInteger positive s

/-- Pass over the exponent of a number, its `e` looked at. -/
def skipExponent : Decode Unit := do
  eat
  let b ← peekOrNull
  if b == 43 || b == 45 then eat
  match ← next? with
  | some b => if isDigit b then skipDigits else error .invalidNumber
  | none => error .invalidNumber

/-- Pass over a number, its sign taken, checking only its syntax. -/
def skipNumber : Decode Unit := do
  match ← next? with
  | some 48 => if isDigit (← peekOrNull) then peekError .invalidNumber
  | some b => if isDigit b then skipDigits else error .invalidNumber
  | none => error .invalidNumber
  let b ← peekOrNull
  if b == 46 then
    eat
    if !isDigit (← peekOrNull) then peekError .invalidNumber
    skipDigits
    let b ← peekOrNull
    if b == 101 || b == 69 then skipExponent
  else if b == 101 || b == 69 then skipExponent

/-- Pass over one value of any kind, nested arrays and objects included, checking its
syntax. The arrays and objects entered are kept as their opening brackets, innermost first;
they may nest to any depth. -/
def skipValue : Decode Unit := do
  go (← remaining) []
where
  /-- A key and its colon, inside an object. -/
  key : Decode Unit := do
    match ← skipWhitespace with
    | some 34 => eat
    | some _ => peekError .keyMustBeString
    | none => peekError .eofObject
    skipString
    match ← skipWhitespace with
    | some 58 => eat
    | some _ => peekError .expectedColon
    | none => peekError .eofObject
  /-- After a value, or after an opening bracket when not `acceptComma`: close what
  closes, and give back the brackets still open once a comma or the start of a value is
  reached, or nothing once the outermost closed. -/
  close : Nat → Bool → List UInt8 → Decode (Option (List UInt8))
    | 0, _, _ => pure none
    | _, _, [] => pure none
    | fuel + 1, acceptComma, frame :: rest => do
      match ← skipWhitespace with
      | none => if frame == 91 then peekError .eofList else peekError .eofObject
      | some b =>
        if b == 44 && acceptComma then
          eat
          pure (some (frame :: rest))
        else if (b == 93 && frame == 91) || (b == 125 && frame == 123) then
          eat
          if rest.isEmpty then pure none else close fuel true rest
        else if acceptComma then
          if frame == 91 then peekError .expectedListCommaOrEnd
          else peekError .expectedObjectCommaOrEnd
        else pure (some (frame :: rest))
  /-- Pass over a value, then close and go on with the next one while brackets are open. -/
  go : Nat → List UInt8 → Decode Unit
    | 0, _ => pure ()
    | fuel + 1, stack => do
      let opened : Option UInt8 ← match ← skipWhitespace with
        | none => peekError .eofValue
        | some b =>
          match b.toNat with
          | 110 => do eat; ident [117, 108, 108]; pure none
          | 116 => do eat; ident [114, 117, 101]; pure none
          | 102 => do eat; ident [97, 108, 115, 101]; pure none
          | 45 => do eat; skipNumber; pure none
          | 34 => do eat; skipString; pure none
          | 91 => do eat; pure (some 91)
          | 123 => do eat; pure (some 123)
          | _ => if isDigit b then do skipNumber; pure none else peekError .expectedValue
      let (acceptComma, stack) := match opened with
        | some frame => (false, frame :: stack)
        | none => (true, stack)
      if stack.isEmpty then return ()
      match ← close (← remaining) acceptComma stack with
      | none => pure ()
      | some stack =>
        if stack.head? == some 123 then key
        go fuel stack

/-- Pass over a colon between a key and its value. -/
def colon : Decode Unit := do
  match ← skipWhitespace with
  | some 58 => eat
  | some _ => peekError .expectedColon
  | none => peekError .eofObject

/-- Whether an object has another member, passing over the comma before it; the opening
quote of its key is looked at. -/
def hasNextKey (first : Bool) : Decode Bool := do
  let b ← match ← skipWhitespace with
    | some 125 => return false
    | some 44 =>
      if first then pure (some 44)
      else
        eat
        skipWhitespace
    | some b => if first then pure (some b) else peekError .expectedObjectCommaOrEnd
    | none => peekError .eofObject
  match b with
  | some 34 => pure true
  | some 125 => peekError .trailingComma
  | some _ => peekError .keyMustBeString
  | none => peekError .eofValue

/-- Whether an array has another element, passing over the comma before it. -/
def hasNextElement (first : Bool) : Decode Bool := do
  let b ← match ← skipWhitespace with
    | some 93 => return false
    | some 44 =>
      if first then pure (some 44)
      else
        eat
        skipWhitespace
    | some b => if first then pure (some b) else peekError .expectedListCommaOrEnd
    | none => peekError .eofList
  match b with
  | some 93 => peekError .trailingComma
  | some _ => pure true
  | none => peekError .eofValue

/-- The end of an object. -/
def endObject : Decode Unit := do
  match ← skipWhitespace with
  | some 125 => eat
  | some 44 => peekError .trailingComma
  | some _ => peekError .trailingCharacters
  | none => peekError .eofObject

/-- The end of an array. -/
def endArray : Decode Unit := do
  match ← skipWhitespace with
  | some 93 => eat
  | some 44 =>
    eat
    match ← skipWhitespace with
    | some 93 => peekError .trailingComma
    | _ => peekError .trailingCharacters
  | some _ => peekError .trailingCharacters
  | none => peekError .eofList

/-- Run the reading of an object's members, then close the object even when the reading
failed, and place a fault that has no place after that. -/
def object {α : Type} (members : Decode α) : Decode α := placed do
  let r ← attempt members
  let e ← attempt endObject
  match r, e with
  | .ok v, .ok () => pure v
  | .error f, _ => throw f
  | .ok _, .error f => throw f

/-- Run the reading of an array's elements, then close the array even when the reading
failed, and place a fault that has no place after that. -/
def array {α : Type} (elements : Decode α) : Decode α := placed do
  let r ← attempt elements
  let e ← attempt endArray
  match r, e with
  | .ok v, .ok () => pure v
  | .error f, _ => throw f
  | .ok _, .error f => throw f

/-- Enter an array or object at its bracket, when `depth` more levels are allowed: the
values inside have one level less, and with one level left this fails. -/
def enter (depth : Nat) : Decode Unit := do
  if depth ≤ 1 then peekError .recursionLimit
  eat

/-- The fault for a value of the wrong type: the value is read to name it, and the fault is
placed after it. -/
def invalidTypeHere {α : Type} (expected : String) : Decode α := placed do
  let b ← peekOrNull
  match b.toNat with
  | 110 => eat; ident [117, 108, 108]; fault (invalidType "null" expected)
  | 116 => eat; ident [114, 117, 101]; fault (invalidType "boolean `true`" expected)
  | 102 => eat; ident [97, 108, 115, 101]; fault (invalidType "boolean `false`" expected)
  | 45 => eat; let n ← number false; fault (invalidType n.unexpected expected)
  | 34 => eat; let s ← string; fault (invalidType ("string " ++ Quoted.quote s) expected)
  | 91 => fault (invalidType "sequence" expected)
  | 123 => fault (invalidType "map" expected)
  | _ =>
    if isDigit b then
      let n ← number true
      fault (invalidType n.unexpected expected)
    else peekError .expectedValue

/-- Read one value whole; `depth` is the nesting still allowed. -/
def content : Nat → Decode Content
  | 0 => peekError .recursionLimit
  | depth + 1 => do
    match ← skipWhitespace with
    | none => peekError .eofValue
    | some b =>
      match b.toNat with
      | 110 => eat; ident [117, 108, 108]; pure .null
      | 116 => eat; ident [114, 117, 101]; pure (.bool true)
      | 102 => eat; ident [97, 108, 115, 101]; pure (.bool false)
      | 45 => eat; return .number (← number false)
      | 34 => eat; return .str (← string)
      | 91 =>
        enter (depth + 1)
        array do
          let mut items := []
          let mut first := true
          for _ in List.range (← remaining) do
            if !(← hasNextElement first) then break
            first := false
            items := items ++ [← content depth]
          pure (Content.seq items)
      | 123 =>
        enter (depth + 1)
        object do
          let mut entries := []
          let mut first := true
          for _ in List.range (← remaining) do
            if !(← hasNextKey first) then break
            first := false
            eat
            let k ← string
            colon
            entries := entries ++ [(k, ← content depth)]
          pure (Content.map entries)
      | _ => if isDigit b then return .number (← number true) else peekError .expectedValue

/-- Fail unless only whitespace is left. -/
def finish : Decode Unit := do
  match ← skipWhitespace with
  | some _ => peekError .trailingCharacters
  | none => pure ()

/-- Read a whole text with `m`, starting at its first byte. -/
def run {α : Type} (m : Decode α) (text : String) : Except Failure α :=
  ((ExceptT.run (ReaderT.run (m <* finish) text.toUTF8)).run 0).1

end Decode

end EntityQuery
