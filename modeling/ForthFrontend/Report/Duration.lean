import ForthFrontend.Text.Decimal

/-!
# Spans of time

The time a stage takes is measured in nanoseconds and reported to the microsecond, in the largest
units that leave a whole part: `2.5ms`, `1m0s`, `1h1m1.5s`.

## Main definitions

* `Duration`: a span of time.
* `Duration.rounded`: the span to the microsecond.
* `Duration.text`: the span in units.
* `Duration.elapsed`: the rounded span in units, as reports show it.
-/

namespace ForthFrontend

/-- A span of time, which may be negative. -/
structure Duration where
  nanoseconds : Int64 := 0
  deriving Repr, DecidableEq, Inhabited

namespace Duration

/-- The nanoseconds in a microsecond. -/
def microsecond : Nat := 1000

/-- The nanoseconds in a millisecond. -/
def millisecond : Nat := 1000 * microsecond

/-- The nanoseconds in a second. -/
def second : Nat := 1000 * millisecond

/-- The nanoseconds in a minute. -/
def minute : Nat := 60 * second

/-- The nanoseconds in an hour. -/
def hour : Nat := 60 * minute

/-- Two spans one after the other. -/
def add (a b : Duration) : Duration :=
  ⟨a.nanoseconds + b.nanoseconds⟩

/-- Spans one after the other. -/
def sum (ds : List Duration) : Duration :=
  ds.foldl add {}

/-- The 64-bit integer nearest to an integer. -/
def clamp (n : Int) : Int64 :=
  if n < Int64.minValue.toInt then Int64.minValue
  else if Int64.maxValue.toInt < n then Int64.maxValue
  else Int64.ofInt n

/-- The span to the microsecond, a half going away from zero. -/
def rounded (d : Duration) : Duration :=
  let n := d.nanoseconds.toInt
  let size := (n.natAbs + microsecond / 2) / microsecond * microsecond
  ⟨clamp (Decimal.signed (n < 0) size)⟩

/-- The fraction `n / 10 ^ places`, which is below one, without zeros at its end. -/
def fractionText (n places : Nat) : Bytes :=
  let digits := Decimal.ofNat (Nat.pow 10 places + n)
  if n == 0 then [] else Bytes.dot :: Bytes.dropEndWhile (· == 0x30) (digits.drop 1)

/-- The number `n / 10 ^ places` without zeros at its end. -/
def fixedText (n places : Nat) : Bytes :=
  Decimal.ofNat (n / Nat.pow 10 places) ++ fractionText (n % Nat.pow 10 places) places

/-- A span of a second or more in hours, minutes and seconds. -/
def clockText (n : Nat) : Bytes :=
  let hours : Bytes := if hour ≤ n then Decimal.ofNat (n / hour) ++ "h" else []
  let minutes : Bytes := if minute ≤ n then Decimal.ofNat (n % hour / minute) ++ "m" else []
  hours ++ minutes ++ fixedText (n % minute) 9 ++ "s"

/-- A number of nanoseconds in the largest unit that leaves a whole part. -/
def sizeText (n : Nat) : Bytes :=
  if n == 0 then "0s"
  else if n < microsecond then Decimal.ofNat n ++ "ns"
  else if n < millisecond then fixedText n 3 ++ "µs"
  else if n < second then fixedText n 6 ++ "ms"
  else clockText n

/-- The span in units. -/
def text (d : Duration) : Bytes :=
  let n := d.nanoseconds.toInt
  if n < 0 then 0x2D :: sizeText n.natAbs else sizeText n.natAbs

/-- The span as reports show it. -/
def elapsed (d : Duration) : Bytes :=
  d.rounded.text

end Duration

end ForthFrontend
