/-!
# Exact decimals

A `Decimal` is a mantissa and a scale and stands for `mantissa / 10 ^ scale`. Numeric
literals with a fraction or an exponent are kept in this form, so that the text written back
keeps the scale the literal was written with: `1.50` stays `1.50`.

Reading follows the rules of a decimal type with a mantissa below `2 ^ 96` and at most 28
fraction digits:

* digits are taken left to right; a digit that would push the mantissa to `2 ^ 96` or more
  is an error in the whole part, and in the fraction it rounds the digits read so far;
* once 28 fraction digits are read, the next digit rounds them and the rest is dropped;
* rounding goes half up on that one digit, and a carry that reaches `2 ^ 96` drops one
  fraction digit again;
* an exponent moves the point: to the left within 28 fraction digits, to the right by
  multiplying out, which gives a whole number below `2 ^ 96`.

`Decimal.render` writes the mantissa with the point `scale` digits from the right.
-/

namespace EntityQuery

/-- A decimal number `mantissa / 10 ^ scale`. -/
structure Decimal where
  mantissa : Nat
  scale : Nat
  deriving DecidableEq, Repr

namespace Decimal

/-- Mantissas stay below this bound. -/
def mantissaBound : Nat := Nat.pow 2 96

/-- At most this many fraction digits are kept. -/
def maxScale : Nat := 28

/-- The value of an ASCII digit. -/
def digitValue (c : Char) : Nat := c.toNat - '0'.toNat

/-- Whether a character is an ASCII digit. -/
def isDigit (c : Char) : Bool := '0' ≤ c && c ≤ '9'

/-- The number written by a list of ASCII digits, most significant first. -/
def natOfDigits (ds : List Char) : Nat :=
  ds.foldl (fun acc c => acc * 10 + digitValue c) 0

/-- Round `mantissa / 10 ^ scale` on the first digit `d` that is not kept: half up, and a
carry that reaches the bound gives up one fraction digit (none left to give is an error). -/
def roundOn (mantissa scale d : Nat) : Option Decimal :=
  if 5 ≤ d then
    if mantissa + 1 < mantissaBound then some ⟨mantissa + 1, scale⟩
    else if scale = 0 then none
    else some ⟨(mantissa + 1 + 4) / 10, scale - 1⟩
  else some ⟨mantissa, scale⟩

/-- Read digits and at most one point, with `mantissa` and `scale` read so far and `point`
telling whether the point was passed. -/
def readPlain (mantissa scale : Nat) (point : Bool) : List Char → Option Decimal
  | [] => some ⟨mantissa, scale⟩
  | c :: rest =>
    if c = '.' then
      if point then none else readPlain mantissa scale true rest
    else if !isDigit c then none
    else
      let next := mantissa * 10 + digitValue c
      if mantissaBound ≤ next then
        if point then roundOn mantissa scale (digitValue c) else none
      else
        let scale' := if point then scale + 1 else scale
        match rest with
        | [] => some ⟨next, scale'⟩
        | d :: _ =>
          if point && maxScale ≤ scale' then
            if isDigit d then roundOn next scale' (digitValue d) else none
          else readPlain next scale' point rest

/-- Read a plain decimal such as `12.50`: digits with at most one point. -/
def ofPlain? (cs : List Char) : Option Decimal :=
  match cs with
  | [] => none
  | _ => readPlain 0 0 false cs

/-- Read the digits of an exponent, with an optional leading `+`, as a 32-bit count. -/
def exponentValue? (cs : List Char) : Option Nat :=
  let ds := match cs with
    | '+' :: rest => rest
    | _ => cs
  if ds.isEmpty || !ds.all isDigit then none
  else
    let n := natOfDigits ds
    if n < Nat.pow 2 32 then some n else none

/-- Move the point of `d` by an exponent: `negative` moves it left by `e`, otherwise right.
Moving left must stay within 28 fraction digits; moving right past the scale multiplies the
mantissa out to a whole number, which must stay below the bound. -/
def shift (d : Decimal) (negative : Bool) (e : Nat) : Option Decimal :=
  if negative then
    if d.scale + e ≤ maxScale then some ⟨d.mantissa, d.scale + e⟩ else none
  else if e ≤ d.scale then some ⟨d.mantissa, d.scale - e⟩
  else if maxScale < e then none
  else
    let whole := d.mantissa * Nat.pow 10 (e - d.scale)
    if whole < mantissaBound then some ⟨whole, 0⟩ else none

/-- Read a decimal in scientific form, such as `1.5e3` or `2.5e-3`: a plain decimal, the
letter `e` or `E`, and an exponent with an optional sign. -/
def ofScientific? (cs : List Char) : Option Decimal :=
  let base := cs.takeWhile (fun c => c ≠ 'e' && c ≠ 'E')
  match cs.dropWhile (fun c => c ≠ 'e' && c ≠ 'E') with
  | [] => none
  | _ :: exp => do
    let d ← ofPlain? base
    match exp with
    | '-' :: rest => shift d true (← exponentValue? rest)
    | _ => shift d false (← exponentValue? exp)

/-- The decimal digits of `n`, none for zero. -/
def digitsOf (n : Nat) : List Char :=
  if n = 0 then [] else Nat.toDigits 10 n

/-- The text of a decimal: the mantissa's digits, padded with zeros to more than the scale,
with a point before the last `scale` of them; a missing whole part is written `0`. -/
def render (d : Decimal) : String :=
  let ds := digitsOf d.mantissa
  let padded := List.replicate (d.scale - ds.length) '0' ++ ds
  let whole := padded.take (padded.length - d.scale)
  let frac := padded.drop (padded.length - d.scale)
  let wholeText := if whole.isEmpty then "0" else String.ofList whole
  if d.scale = 0 then wholeText else wholeText ++ "." ++ String.ofList frac

end Decimal

end EntityQuery
