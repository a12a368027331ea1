import ForthFrontend.Text.Utf8

/-!
# White space

The scalar values that count as white space when option values are trimmed. The scanner of source
lines uses a smaller set of its own.
-/

namespace ForthFrontend.Bytes

/-- The white space scalar values, as ranges. -/
def spaceRanges : List (Nat × Nat) := [
  (0x09, 0x0D), (0x20, 0x20), (0x85, 0x85), (0xA0, 0xA0), (0x1680, 0x1680), (0x2000, 0x200A),
  (0x2028, 0x2029), (0x202F, 0x202F), (0x205F, 0x205F), (0x3000, 0x3000)]

/-- Does `v` lie in one of the ranges? -/
def inRanges (ranges : List (Nat × Nat)) (v : Nat) : Bool :=
  ranges.any fun r => r.1 ≤ v && v ≤ r.2

/-- Is the unit a white space character? -/
def isSpaceUnit (u : Utf8.Unit) : Bool :=
  !u.isStray && inRanges spaceRanges u.value

/-- The text without white space at its ends. -/
def trimSpace (s : Bytes) : Bytes :=
  let inner := ((Utf8.units s).dropWhile isSpaceUnit).reverse.dropWhile isSpaceUnit
  inner.reverse.flatMap Utf8.Unit.bytes

/-- Does the text hold nothing but white space? -/
def isBlank (s : Bytes) : Bool :=
  (trimSpace s).isEmpty

end ForthFrontend.Bytes
