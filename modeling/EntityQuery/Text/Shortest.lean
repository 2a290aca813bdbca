/-!
# Doubles: exact values, rounding and shortest text

A finite double is `m · 2^e` for natural `m` and integer `e`. `Double.ofNat` rounds a natural
number to the nearest double, a tie to the even mantissa. `Double.shortest` writes a double
with the fewest significant digits that read back as the same double, the nearest such
digits to its exact value, a tie to the even digit.

The digits are found on decimal grids of 1, 2, ... digits: a grid point reads back when it
lies in the interval of reals that round to the double, whose ends belong to it exactly when
the mantissa is even. If any point of a grid lies in that interval, so does one of the two
points next to the value, so those two are the only ones to test.

`Double.toText` lays the digits out: positionally with `.0` when the decimal exponent is
below 17, with up to four leading zeros after `0.` for small values, and otherwise as digits,
`e`, the exponent's sign and the exponent, with a point after the first digit when there is
more than one.
-/

namespace EntityQuery

namespace Double

/-- The bits of the fraction of a double. -/
def fractionBits : Nat := 52

/-- The sign, biased exponent and fraction of a double. -/
def fields (x : Float) : Bool × Nat × Nat :=
  let bits := x.toBits.toNat
  (bits / Nat.pow 2 63 = 1, (bits / Nat.pow 2 fractionBits) % 2048, bits % Nat.pow 2 fractionBits)

/-- A double from its sign, biased exponent and fraction. -/
def ofFields (negative : Bool) (exponent fraction : Nat) : Float :=
  Float.ofBits (UInt64.ofNat ((if negative then Nat.pow 2 63 else 0) + exponent * Nat.pow 2 fractionBits + fraction))

/-- The number of binary digits of `n`. -/
def bitLength (n : Nat) : Nat := if n = 0 then 0 else n.log2 + 1

/-- The quotient `n / 2^k` rounded to the nearest natural number, a tie to the even one. -/
def shiftRound (n k : Nat) : Nat :=
  let q := n / Nat.pow 2 k
  let r := n % Nat.pow 2 k
  let half := Nat.pow 2 k / 2
  if k = 0 then n
  else if r > half || (r = half && q % 2 = 1) then q + 1 else q

/-- The double nearest to a natural number, a tie to the even mantissa; infinity beyond the
largest double. A number of at most 53 bits fits in the mantissa exactly; a longer one is
rounded, which may carry into a new binary digit. -/
def ofNat (n : Nat) : Float :=
  if n = 0 then 0 else
  let len := bitLength n
  if len ≤ 53 then
    ofFields false (1023 + len - 1) ((n * Nat.pow 2 (53 - len)) % Nat.pow 2 fractionBits)
  else
    let m := shiftRound n (len - 53)
    let (m, len) := if m = Nat.pow 2 53 then (Nat.pow 2 52, len + 1) else (m, len)
    if len - 1 > 1023 then ofFields false 2047 0
    else ofFields false (1023 + len - 1) (m % Nat.pow 2 fractionBits)

/-- The number of decimal digits of a positive number. -/
def decimalLength (n : Nat) : Nat := (toString n).length

/-- The shortest digits of a positive double `m · 2^e` that read back, as digits `d` and a
decimal exponent `k` with value `d · 10^k`. `lowerHalf` says that the gap to the double below
is half the gap above, which happens at a power of two. The exact value is `big · 10^(-scale)`
and the gap to the next double is `gap` such units; in quarter units, the reals that round to
the double lie between `lower` and `upper`. -/
def shortestDigits (m : Nat) (e : Int) (lowerHalf : Bool) : Nat × Int :=
  let scale : Nat := if e < 0 then e.natAbs else 0
  let big := if e < 0 then m * Nat.pow 5 scale else m * Nat.pow 2 e.toNat
  let gap := if e < 0 then Nat.pow 5 scale else Nat.pow 2 e.toNat
  let upper := 4 * big + 2 * gap
  let lower := if lowerHalf then 4 * big - gap else 4 * big - 2 * gap
  let inclusive := m % 2 = 0
  let inside (c4 : Nat) : Bool := if inclusive then lower ≤ c4 && c4 ≤ upper else lower < c4 && c4 < upper
  let len := decimalLength big
  let rec search : Nat → Nat → Nat × Int
    | 0, _ => (big, -(scale : Int))
    | fuel + 1, p =>
      if len ≤ p then (big, -(scale : Int))
      else
        let t := Nat.pow 10 (len - p)
        let dl := big / t
        let du := dl + 1
        let exponent : Int := (len - p : Nat) - (scale : Int)
        let lowIn := inside (4 * dl * t)
        let highIn := inside (4 * du * t)
        if lowIn && highIn then
          let below := big - dl * t
          let above := du * t - big
          if below < above || (below = above && dl % 2 = 0) then (dl, exponent) else (du, exponent)
        else if lowIn then (dl, exponent)
        else if highIn then (du, exponent)
        else search fuel (p + 1)
  search (len + 1) 1

/-- Digits and exponent without trailing zeros in the digits. -/
def stripZeros : Nat → Nat × Int → Nat × Int
  | 0, r => r
  | fuel + 1, (d, k) => if d ≠ 0 && d % 10 = 0 then stripZeros fuel (d / 10, k + 1) else (d, k)

/-- The exponent part of scientific notation: `e`, the sign, then the digits. -/
def exponentText (e : Int) : String :=
  if e < 0 then "e" ++ toString e else "e+" ++ toString e

/-- Digits `d` with decimal exponent `k` laid out as text. -/
def layout (d : Nat) (k : Int) : String :=
  let digits := toString d
  let length : Int := digits.length
  let kk := length + k
  if 0 ≤ k && kk ≤ 16 then
    digits ++ String.ofList (List.replicate k.toNat '0') ++ ".0"
  else if 0 < kk && kk ≤ 16 then
    String.ofList (digits.toList.take kk.toNat) ++ "." ++ String.ofList (digits.toList.drop kk.toNat)
  else if -5 < kk && kk ≤ 0 then
    "0." ++ String.ofList (List.replicate kk.natAbs '0') ++ digits
  else if length = 1 then
    digits ++ exponentText (kk - 1)
  else
    String.ofList (digits.toList.take 1) ++ "." ++ String.ofList (digits.toList.drop 1) ++
      exponentText (kk - 1)

/-- The shortest text of a finite double. -/
def toText (x : Float) : String :=
  let (negative, exponent, fraction) := fields x
  let sign := if negative then "-" else ""
  if exponent = 0 && fraction = 0 then sign ++ "0.0"
  else if exponent = 2047 then (if fraction = 0 then sign ++ "inf" else "NaN")
  else
    let (m, e) : Nat × Int :=
      if exponent = 0 then (fraction, -1074) else (fraction + Nat.pow 2 fractionBits, (exponent : Int) - 1075)
    let (d, k) := shortestDigits m e (fraction = 0 && exponent > 1)
    let (d, k) := stripZeros (decimalLength d) (d, k)
    sign ++ layout d k

end Double

end EntityQuery
