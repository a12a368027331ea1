import ForthFrontend.Text.Utf8

/-!
# The characters of a document

A document is a sequence of scalar values encoded in UTF-8 or, if it begins with a byte order mark
that says so, in UTF-16. Control characters other than tab and line breaks, surrogates and byte
order marks inside the document are refused.

## Main definitions

* `Yaml.isBreak`, `Yaml.isBlank`: the classes of white space.
* `Yaml.Style`: the ways to write a scalar.
* `Yaml.CharacterFault`: why bytes are no document.
* `Yaml.characters`: the characters of a document.
-/

namespace ForthFrontend.Yaml

/-- How a scalar is written. -/
inductive Style where
  | plain
  | single
  | double
  | literal
  | folded
  deriving Repr, DecidableEq, Inhabited

/-- The scalar values that end lines. -/
def isBreak (v : Nat) : Bool :=
  v == 0x0A || v == 0x0D || v == 0x85 || v == 0x2028 || v == 0x2029

/-- Space and tab. -/
def isBlank (v : Nat) : Bool :=
  v == 0x20 || v == 0x09

/-- Why bytes are no document. -/
inductive CharacterFault where
  | leadingOctet
  | trailingOctet
  | incompleteSequence
  | sequenceLength
  | surrogate
  | control
  | incompleteUnit
  | incompletePair
  | loneLowSurrogate
  | missingLowSurrogate
  deriving Repr, DecidableEq, Inhabited

namespace CharacterFault

/-- The wording of a fault. -/
def message : CharacterFault → Bytes
  | leadingOctet => "invalid leading UTF-8 octet"
  | trailingOctet => "invalid trailing UTF-8 octet"
  | incompleteSequence => "incomplete UTF-8 octet sequence"
  | sequenceLength => "invalid length of a UTF-8 sequence"
  | surrogate => "invalid Unicode character"
  | control => "control characters are not allowed"
  | incompleteUnit => "incomplete UTF-16 character"
  | incompletePair => "incomplete UTF-16 surrogate pair"
  | loneLowSurrogate => "unexpected low surrogate area"
  | missingLowSurrogate => "expected low surrogate area"

end CharacterFault

/-- Is the value a surrogate, or beyond the last scalar value? -/
def isNoScalar (v : Nat) : Bool :=
  (0xD800 ≤ v && v ≤ 0xDFFF) || v > 0x10FFFF

/-- The scalar values that may stand in a document. -/
def isAllowed (v : Nat) : Bool :=
  v == 0x09 || v == 0x0A || v == 0x0D || v == 0x85 || (0x20 ≤ v && v ≤ 0x7E)
    || (0xA0 ≤ v && v ≤ 0xD7FF) || (0xE000 ≤ v && v ≤ 0xFFFD && v != 0xFEFF)
    || (0x10000 ≤ v && v ≤ 0x10FFFF)

/-- The value itself, if it may stand in a document. -/
def allowed (v : Nat) : Except CharacterFault Nat :=
  if isNoScalar v then .error .surrogate else if isAllowed v then .ok v else .error .control

/-- The number of bytes that a leading byte announces. -/
def announced (b : UInt8) : Option Nat :=
  if b < 0x80 then some 1
  else if 0xC0 ≤ b && b < 0xE0 then some 2
  else if 0xE0 ≤ b && b < 0xF0 then some 3
  else if 0xF0 ≤ b && b < 0xF8 then some 4
  else none

/-- The bits that a leading byte of a sequence of `width` bytes contributes. -/
def leadBits (width : Nat) (b : UInt8) : Nat :=
  if width == 1 then b.toNat
  else if width == 2 then b.toNat % 32
  else if width == 3 then b.toNat % 16
  else b.toNat % 8

/-- The least value that needs a sequence of `width` bytes. -/
def leastOf (width : Nat) : Nat :=
  if width == 1 then 0 else if width == 2 then 0x80 else if width == 3 then 0x800 else 0x10000

/-- The value of a sequence with the leading byte `b` and the trailing bytes `tail`. -/
def sequenceValue (width : Nat) (b : UInt8) (tail : Bytes) : Except CharacterFault Nat :=
  if tail.length + 1 < width then .error .incompleteSequence
  else if !tail.all Utf8.isContinuation then .error .trailingOctet
  else
    let v := tail.foldl (fun v c => v * 64 + Utf8.payload c) (leadBits width b)
    if v < leastOf width then .error .sequenceLength else allowed v

/-- Decodes UTF-8 behind the characters found so far, latest first. -/
def decodeOctets (found : List Nat) : Bytes → Except CharacterFault (List Nat)
  | [] => .ok found.reverse
  | b :: rest =>
    match announced b with
    | none => .error .leadingOctet
    | some width =>
      match sequenceValue width b (rest.take (width - 1)) with
      | .error e => .error e
      | .ok v => decodeOctets (v :: found) (rest.drop (width - 1))
termination_by s => s.length
decreasing_by simp only [List.length_drop, List.length_cons]; omega

/-- The 16-bit units of a text, the low byte first if `low` is set. -/
def units16 (low : Bool) : Bytes → Except CharacterFault (List Nat)
  | a :: b :: rest => do
    let u := if low then a.toNat + 256 * b.toNat else 256 * a.toNat + b.toNat
    return u :: (← units16 low rest)
  | [_] => .error .incompleteUnit
  | [] => .ok []

/-- Decodes 16-bit units. -/
def decodeUnits : List Nat → Except CharacterFault (List Nat)
  | [] => .ok []
  | u :: rest =>
    if 0xDC00 ≤ u && u ≤ 0xDFFF then .error .loneLowSurrogate
    else if 0xD800 ≤ u && u ≤ 0xDBFF then
      match rest with
      | [] => .error .incompletePair
      | w :: tail =>
        if 0xDC00 ≤ w && w ≤ 0xDFFF then do
          let v ← allowed (0x10000 + (u - 0xD800) * 1024 + (w - 0xDC00))
          return v :: (← decodeUnits tail)
        else .error .missingLowSurrogate
    else do
      let v ← allowed u
      return v :: (← decodeUnits rest)

/-- The characters of a document. -/
def characters (s : Bytes) : Except CharacterFault (List Nat) :=
  match s with
  | 0xFF :: 0xFE :: rest => do decodeUnits (← units16 true rest)
  | 0xFE :: 0xFF :: rest => do decodeUnits (← units16 false rest)
  | 0xEF :: 0xBB :: 0xBF :: rest => decodeOctets [] rest
  | _ => decodeOctets [] s

end ForthFrontend.Yaml
