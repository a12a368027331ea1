import ForthFrontend.Text.Bytes

/-!
# Decoding UTF-8

A byte string is read as a sequence of units. Each unit is either one well-formed UTF-8 encoding of
a scalar value or a single byte that begins no well-formed encoding. The units of a text always
concatenate to the text again, whether it is valid UTF-8 or not.

## Main definitions

* `Utf8.Unit`: a scalar value or a stray byte.
* `Utf8.split`: the first unit of a text and what follows it.
* `Utf8.units`: all units of a text.
* `Utf8.isValid`: no stray byte occurs.
* `Utf8.encode`: the bytes of a scalar value.
-/

namespace ForthFrontend.Utf8

/-- The scalar value that stands for a stray byte wherever a scalar value is required. -/
def replacement : Nat := 0xFFFD

/-- A well-formed encoding of a scalar value, or a byte that begins none. -/
inductive Unit where
  | scalar (value : Nat) (bytes : Bytes)
  | stray (byte : UInt8)
  deriving Repr, DecidableEq, Inhabited

namespace Unit

/-- The bytes of a unit. -/
def bytes : Unit → Bytes
  | scalar _ bs => bs
  | stray b => [b]

/-- The scalar value of a unit, a stray byte counting as the replacement character. -/
def value : Unit → Nat
  | scalar v _ => v
  | stray _ => replacement

/-- Is the unit a stray byte? -/
def isStray : Unit → Bool
  | scalar _ _ => false
  | stray _ => true

end Unit

/-- The low six bits of a continuation byte. -/
def payload (b : UInt8) : Nat :=
  b.toNat % 64

/-- Does `b` lie between `lo` and `hi`? -/
def between (lo hi b : UInt8) : Bool :=
  lo ≤ b && b ≤ hi

/-- Is `b` a continuation byte? -/
def isContinuation (b : UInt8) : Bool :=
  between 0x80 0xBF b

/-- The range of the second byte after a leading byte of three or four: overlong encodings,
surrogates and values above `0x10FFFF` are excluded here. -/
def secondRange (lead : UInt8) : UInt8 × UInt8 :=
  if lead == 0xE0 then (0xA0, 0xBF)
  else if lead == 0xED then (0x80, 0x9F)
  else if lead == 0xF0 then (0x90, 0xBF)
  else if lead == 0xF4 then (0x80, 0x8F)
  else (0x80, 0xBF)

/-- May `b` follow the leading byte `lead`? -/
def isSecond (lead b : UInt8) : Bool :=
  between (secondRange lead).1 (secondRange lead).2 b

/-- The unit that begins with `b`, and what remains of `rest` after it. -/
def split (b : UInt8) (rest : Bytes) : Unit × Bytes :=
  if b < 0x80 then (.scalar b.toNat [b], rest)
  else if between 0xC2 0xDF b then
    match rest with
    | c :: tail =>
      if isContinuation c then (.scalar (b.toNat % 32 * 64 + payload c) [b, c], tail)
      else (.stray b, rest)
    | [] => (.stray b, rest)
  else if between 0xE0 0xEF b then
    match rest with
    | c :: d :: tail =>
      if isSecond b c && isContinuation d then
        (.scalar ((b.toNat % 16 * 64 + payload c) * 64 + payload d) [b, c, d], tail)
      else (.stray b, rest)
    | _ => (.stray b, rest)
  else if between 0xF0 0xF4 b then
    match rest with
    | c :: d :: e :: tail =>
      if isSecond b c && isContinuation d && isContinuation e then
        (.scalar (((b.toNat % 8 * 64 + payload c) * 64 + payload d) * 64 + payload e) [b, c, d, e],
          tail)
      else (.stray b, rest)
    | _ => (.stray b, rest)
  else (.stray b, rest)

/-- Splitting off a unit never lengthens what remains. -/
theorem length_split_le (b : UInt8) (rest : Bytes) : (split b rest).2.length ≤ rest.length := by
  unfold split
  repeat' split
  all_goals simp only [List.length_cons]; omega

/-- Nothing is lost when a unit is split off. -/
theorem bytes_split (b : UInt8) (rest : Bytes) :
    (split b rest).1.bytes ++ (split b rest).2 = b :: rest := by
  unfold split
  repeat' split
  all_goals rfl

/-- Collects the units of the remaining text behind those found so far, latest first. -/
def collect (found : List Unit) : Bytes → List Unit
  | [] => found.reverse
  | b :: rest => collect ((split b rest).1 :: found) (split b rest).2
termination_by s => s.length
decreasing_by
  have := length_split_le b rest
  simp only [List.length_cons]
  omega

/-- The units of a text, in order. -/
def units (s : Bytes) : List Unit :=
  collect [] s

/-- The scalar values of a text, a stray byte counting as the replacement character. -/
def scalars (s : Bytes) : List Nat :=
  (units s).map Unit.value

/-- Is the text well-formed UTF-8? -/
def isValid (s : Bytes) : Bool :=
  (units s).all fun u => !u.isStray

/-- The number of units of a text. -/
def count (s : Bytes) : Nat :=
  (units s).length

/-- The byte whose value is the low eight bits of `n`. -/
def octet (n : Nat) : UInt8 :=
  n.toUInt8

/-- The UTF-8 encoding of a scalar value. -/
def encode (v : Nat) : Bytes :=
  if v < 0x80 then [octet v]
  else if v < 0x800 then [octet (0xC0 + v / 64), octet (0x80 + v % 64)]
  else if v < 0x10000 then
    [octet (0xE0 + v / 4096), octet (0x80 + v / 64 % 64), octet (0x80 + v % 64)]
  else
    [octet (0xF0 + v / 262144), octet (0x80 + v / 4096 % 64), octet (0x80 + v / 64 % 64),
      octet (0x80 + v % 64)]

end ForthFrontend.Utf8
