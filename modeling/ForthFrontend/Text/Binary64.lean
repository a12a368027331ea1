import ForthFrontend.Text.Decimal

/-!
# Binary floating point numbers

Decimal numerals with a fraction or an exponent are read as the nearest number with 53 significant
bits, halves going to the even neighbour, and written with the fewest digits that read back.

## Main definitions

* `Binary64`: the numbers, infinities and the undefined number.
* `Binary64.ofDecimal?`: the number nearest to a decimal, unless that is too large.
* `Binary64.read?`: the number of a decimal numeral.
* `Binary64.truncate`: the integer part.
* `Binary64.render`: the shortest positional numeral that reads back.
-/

namespace ForthFrontend

/-- A number `mantissa * 2 ^ exponent` with a sign, an infinity, or the undefined number. -/
inductive Binary64 where
  | finite (negative : Bool) (mantissa : Nat) (exponent : Int)
  | infinite (negative : Bool)
  | undefined
  deriving Repr, DecidableEq, Inhabited

namespace Binary64

/-- The quotient rounded to the nearest integer, a half to the even one. -/
def roundDiv (num den : Nat) : Nat :=
  let q := num / den
  let r := num % den
  if 2 * r < den then q
  else if den < 2 * r then q + 1
  else if q % 2 == 0 then q else q + 1

/-- The fraction `num / den` scaled by `2 ^ (-e)`, as numerator and denominator. -/
def scaled (num den : Nat) (e : Int) : Nat × Nat :=
  if 0 ≤ e then (num, den * Nat.pow 2 e.toNat) else (num * Nat.pow 2 (-e).toNat, den)

/-- The least mantissa of a number that has all its bits, `2 ^ 52`. -/
def fullMantissa : Nat := 4503599627370496

/-- The least exponent of a number. -/
def minExponent : Int := -1074

/-- The greatest exponent of a finite number with a full mantissa. -/
def maxExponent : Int := 971

/-- The exponent that leaves 53 bits before the point of `num / den`, but at least the least one. -/
def chooseExponent (num den : Nat) : Int :=
  let guess : Int := (Nat.log2 num : Int) - (Nat.log2 den : Int) - 52
  let (n, d) := scaled num den guess
  let e := if n / d < fullMantissa then guess - 1 else guess
  max e minExponent

/-- The mantissa and exponent nearest to a positive fraction, or nothing if it is too large. -/
def ofFraction? (num den : Nat) : Option (Nat × Int) :=
  let e := chooseExponent num den
  let (n, d) := scaled num den e
  let m := roundDiv n d
  let (m, e) := if m == 2 * fullMantissa then (fullMantissa, e + 1) else (m, e)
  if maxExponent < e then none else some (m, e)

/-- The number nearest to `digits * 10 ^ exponent`, or nothing if it is too large. -/
def ofDecimal? (negative : Bool) (digits : Nat) (exponent : Int) : Option Binary64 :=
  let size : Int := (Decimal.ofNat digits).length
  if digits == 0 then some (.finite negative 0 minExponent)
  else if 400 < exponent + size then none
  else if exponent + size < -400 then some (.finite negative 0 minExponent)
  else
    let found :=
      if 0 ≤ exponent then ofFraction? (digits * Nat.pow 10 exponent.toNat) 1
      else ofFraction? digits (Nat.pow 10 (-exponent).toNat)
    found.map fun r => .finite negative r.1 r.2

/-- The number nearest to an integer, or an infinity if it is too large. -/
def ofInt (n : Int) : Binary64 :=
  (ofDecimal? (n < 0) n.natAbs 0).getD (infinite (n < 0))

/-- Splits a numeral into the digits before the point, the digits after it and the exponent. -/
def splitNumeral? (s : Bytes) : Option (Bytes × Bytes × Int) :=
  let whole := s.takeWhile Bytes.isDigit
  let rest := s.dropWhile Bytes.isDigit
  let (fraction, rest) := match rest with
    | 0x2E :: r => (r.takeWhile Bytes.isDigit, r.dropWhile Bytes.isDigit)
    | _ => ([], rest)
  if whole.isEmpty && fraction.isEmpty then none
  else match rest with
    | [] => some (whole, fraction, 0)
    | b :: r =>
      if b == 0x65 || b == 0x45 then
        (Decimal.digitsValue? 10 (Decimal.takeSign r).2).map fun n =>
          (whole, fraction, Decimal.signed (Decimal.takeSign r).1 n)
      else none

/-- The number of a decimal numeral with an optional sign, fraction and exponent. -/
def read? (s : Bytes) : Option Binary64 := do
  let (negative, body) := Decimal.takeSign s
  let (whole, fraction, exponent) ← splitNumeral? body
  let digits ← Decimal.digitsValue? 10 (whole ++ fraction)
  ofDecimal? negative digits (exponent - fraction.length)

/-- The magnitude of a finite number without its fraction. -/
def wholePart (mantissa : Nat) (exponent : Int) : Nat :=
  if 0 ≤ exponent then mantissa * Nat.pow 2 exponent.toNat
  else mantissa / Nat.pow 2 (-exponent).toNat

/-- The integer part, cut to 64 bits. Numbers out of range and the undefined number give the least
64-bit integer. -/
def truncate : Binary64 → Int64
  | finite negative m e =>
    let n := Decimal.signed negative (wholePart m e)
    if Decimal.fitsInt64 n then Int64.ofInt n else Int64.minValue
  | _ => Int64.minValue

/-- The least positive integer that has no 64 bits, `2 ^ 63`. -/
def limit : Nat := 9223372036854775808

/-- Is the number at most `2 ^ 63`? -/
def atMostInt64 : Binary64 → Bool
  | finite negative m e =>
    negative || wholePart m e < limit || (wholePart m e == limit && 0 ≤ e)
  | infinite negative => negative
  | undefined => false

/-- Is the number zero? -/
def isZero : Binary64 → Bool
  | finite _ m _ => m == 0
  | _ => false

/-- A positive number as a fraction. -/
def fraction (m : Nat) (e : Int) : Nat × Nat :=
  if 0 ≤ e then (m * Nat.pow 2 e.toNat, 1) else (m, Nat.pow 2 (-e).toNat)

/-- The fraction `num / den` in units of `10 ^ k`, as numerator and denominator. -/
def onGrid (num den : Nat) (k : Int) : Nat × Nat :=
  if 0 ≤ k then (num, den * Nat.pow 10 k.toNat) else (num * Nat.pow 10 (-k).toNat, den)

/-- The least `k` with `num / den < 10 ^ k`, searched from `k` on upwards. -/
def magnitude (num den : Nat) : Nat → Int → Int
  | 0, k => k
  | fuel + 1, k =>
    let (n, d) := onGrid num den k
    let below := n < d
    if below then k else magnitude num den fuel (k + 1)

/-- The neighbours of `num / den` on the grid of multiples of `10 ^ k`, the nearer one first. -/
def neighbours (num den : Nat) (k : Int) : List Nat :=
  let (n, d) := onGrid num den k
  let q := n / d
  if 2 * (n % d) < d || (2 * (n % d) == d && q % 2 == 0) then [q, q + 1] else [q + 1, q]

/-- The digits and exponent of the coarsest decimal that reads back as the number, trying grids
from coarse to fine. -/
def shortest (m : Nat) (e : Int) : Nat × Int :=
  let (num, den) := fraction m e
  let top := magnitude num den 800 (-350)
  let hits := (List.range 18).flatMap fun (n : Nat) =>
    let k := top - (n : Int) - 1
    (neighbours num den k).filterMap fun q =>
      if ofDecimal? false q k == some (.finite false m e) then some (q, k) else none
  hits.headD (0, 0)

/-- A decimal in positional notation. -/
def positional (digits : Nat) (k : Int) : Bytes :=
  let ds := Decimal.ofNat digits
  if 0 ≤ k then ds ++ Bytes.fill k.toNat 0x30
  else
    let places := (-k).toNat
    let padded := Bytes.fill (places + 1 - ds.length) 0x30 ++ ds
    let cut := padded.length - places
    padded.take cut ++ Bytes.dot :: padded.drop cut

/-- The shortest positional numeral that reads back as the number. -/
def render : Binary64 → Bytes
  | finite negative m e =>
    let body := if m == 0 then [0x30] else positional (shortest m e).1 (shortest m e).2
    if negative then 0x2D :: body else body
  | infinite negative => if negative then "-Inf" else "+Inf"
  | undefined => "NaN"

end Binary64

end ForthFrontend
