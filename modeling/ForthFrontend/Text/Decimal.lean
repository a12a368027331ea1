import ForthFrontend.Text.Bytes

/-!
# Numerals

Writing integers in decimal and hexadecimal, and reading signed 64-bit integers. A decimal numeral
is an optional sign followed by one or more ASCII digits; it is refused when its value does not fit
in 64 bits.

## Main definitions

* `Decimal.ofNat`, `Decimal.ofInt`, `Decimal.ofInt64`: the decimal numeral of a number.
* `Decimal.hex`: the hexadecimal numeral with a given number of digits.
* `Decimal.readInt64?`: the number of a decimal numeral.
* `Decimal.readBased?`: the same for a numeral that shows its base, as in `0x1F`.
* `Decimal.digitsValue?`: the value of a string of digits in any base up to 36.
-/

namespace ForthFrontend.Decimal

/-- The byte of the digit with value `d`, letters standing for the values from ten on. -/
def digit (d : Nat) : UInt8 :=
  (if d < 10 then 0x30 + d else 0x57 + d).toUInt8

/-- Puts the digits of `n` in base `base` in front of `tail`, with `fuel` bounding their number. -/
def digitsInto (base : Nat) : Nat → Nat → Bytes → Bytes
  | 0, _, tail => tail
  | fuel + 1, n, tail =>
    if n < base then digit n :: tail
    else digitsInto base fuel (n / base) (digit (n % base) :: tail)

/-- The decimal numeral of `n`. -/
def ofNat (n : Nat) : Bytes :=
  digitsInto 10 (n + 1) n []

/-- The decimal numeral of `n`, with a minus sign for a negative number. -/
def ofInt (n : Int) : Bytes :=
  if n < 0 then 0x2D :: ofNat n.natAbs else ofNat n.natAbs

/-- The decimal numeral of a 64-bit integer. -/
def ofInt64 (n : Int64) : Bytes :=
  ofInt n.toInt

/-- The `width` last hexadecimal digits of `n`, in lower case. -/
def hex : Nat → Nat → Bytes
  | 0, _ => []
  | width + 1, n => hex width (n / 16) ++ [digit (n % 16)]

/-- The value of a digit or letter, letters of either case standing for the values from ten on. -/
def digitValue? (b : UInt8) : Option Nat :=
  if 0x30 ≤ b && b ≤ 0x39 then some (b.toNat - 0x30)
  else if 0x61 ≤ b && b ≤ 0x7A then some (b.toNat - 0x57)
  else if 0x41 ≤ b && b ≤ 0x5A then some (b.toNat - 0x37)
  else none

/-- Appends one digit in base `base` to a value. -/
def addDigit (base : Nat) (value : Option Nat) (b : UInt8) : Option Nat := do
  let v ← value
  let d ← digitValue? b
  if d < base then some (v * base + d) else none

/-- The value of a string of one or more digits in base `base`. -/
def digitsValue? (base : Nat) (s : Bytes) : Option Nat :=
  if s.isEmpty then none else s.foldl (addDigit base) (some 0)

/-- Is `n` a 64-bit integer? -/
def fitsInt64 (n : Int) : Bool :=
  -9223372036854775808 ≤ n && n < 9223372036854775808

/-- Takes the sign off a numeral: is it negative, and what follows the sign. -/
def takeSign (s : Bytes) : Bool × Bytes :=
  match s with
  | 0x2B :: rest => (false, rest)
  | 0x2D :: rest => (true, rest)
  | _ => (false, s)

/-- A magnitude with its sign. -/
def signed (negative : Bool) (n : Nat) : Int :=
  if negative then -(n : Int) else n

/-- The number of a signed numeral in base `base`, if it has 64 bits. -/
def readInt? (base : Nat) (s : Bytes) : Option Int := do
  let n ← digitsValue? base (takeSign s).2
  let v := signed (takeSign s).1 n
  if fitsInt64 v then some v else none

/-- The number of a signed decimal numeral, if it has 64 bits. -/
def readInt64? (s : Bytes) : Option Int64 :=
  (readInt? 10 s).map Int64.ofInt

/-- The base and the digits of a numeral without a sign: a leading zero means base eight, unless a
letter after it names another base. -/
def baseOf (s : Bytes) : Nat × Bytes :=
  match s with
  | 0x30 :: c :: d :: rest =>
    if c == 0x62 || c == 0x42 then (2, d :: rest)
    else if c == 0x6F || c == 0x4F then (8, d :: rest)
    else if c == 0x78 || c == 0x58 then (16, d :: rest)
    else (8, c :: d :: rest)
  | [0x30, c] => (8, [c])
  | _ => (10, s)

/-- Do underscores stand only between digits, or after the letter of a base? `digit` says whether
the last byte was a digit or such a letter, and `under` whether it was an underscore. -/
def goodUnderscores (digit under : Bool) : Bytes → Bool
  | [] => !under
  | b :: rest =>
    if b == 0x5F then digit && goodUnderscores false true rest
    else goodUnderscores (digitValue? b).isSome false rest

/-- The number of a signed numeral whose base is shown by its first digits, if it has 64 bits. -/
def readBased? (s : Bytes) : Option Int64 := do
  let (negative, body) := takeSign s
  let (base, digits) := baseOf body
  if !goodUnderscores (base != 10) false digits then none
  let n ← digitsValue? base (digits.filter (· != 0x5F))
  let v := signed negative n
  if fitsInt64 v then some (Int64.ofInt v) else none

end ForthFrontend.Decimal
