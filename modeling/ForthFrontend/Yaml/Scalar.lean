import ForthFrontend.Text.Base64
import ForthFrontend.Yaml.Character
import ForthFrontend.Yaml.Implicit

/-!
# Writing scalars

A text is written in the first of these styles that can hold it: unquoted, in single quotes, in
double quotes with escapes. Text with line feeds is written as a literal block outside flow
collections, if it can be. Text that an unquoted scalar would be mistaken for something else is
written in double quotes. Text that is not valid UTF-8 is written as tagged base64.

A literal block begins on the line after its header, except that the line breaks at the very
beginning of the text are written right after the header.

## Main definitions

* `Yaml.Scalar.style`: the style a text is written in.
* `Yaml.Scalar.write`: the text as it is written.
-/

namespace ForthFrontend.Yaml

/-- Where a scalar stands: inside a flow collection or not, and how far its further lines are
indented. -/
structure Place where
  inFlow : Bool
  indent : Nat
  /-- The width of one level of indentation. -/
  step : Nat
  deriving Repr, DecidableEq, Inhabited

namespace Scalar

/-- The scalar values that need no escape in a document. -/
def isPrintable (v : Nat) : Bool :=
  v == 0x0A || (0x20 ≤ v && v ≤ 0x7E) || (0xA0 ≤ v && v ≤ 0xFFFD && v != 0xFEFF)

/-- Neither printable nor a tab. -/
def isSpecial (v : Nat) : Bool :=
  v != 0x09 && !isPrintable v

/-- The neighbouring pairs of a list. -/
def pairs (vs : List Nat) : List (Nat × Nat) :=
  vs.zip vs.tail

/-- Does a line break stand before a space? -/
def hasBreakSpace (vs : List Nat) : Bool :=
  (pairs vs).any fun p => isBreak p.1 && p.2 == 0x20

/-- Does a space stand before a line break? -/
def hasSpaceBreak (vs : List Nat) : Bool :=
  (pairs vs).any fun p => p.1 == 0x20 && isBreak p.2

/-- Does a space or a line break stand at one of the ends? -/
def hasLooseEnd (vs : List Nat) : Bool :=
  [vs.head?, vs.getLast?].any fun v => v.any fun v => v == 0x20 || isBreak v

/-- The indicators that an unquoted scalar cannot begin with. -/
def leadingIndicators : List Nat :=
  (Bytes.ofString "#,[]\x7b\x7d&*!|>'\"%@`").map UInt8.toNat

/-- The indicators that end an unquoted scalar in a flow collection. -/
def flowIndicators : List Nat :=
  (Bytes.ofString ",?[]\x7b\x7d").map UInt8.toNat

/-- Does a blank or the end follow? -/
def endsWord (next : Option Nat) : Bool :=
  next.all isBlank

/-- Does the text begin like the mark between documents? -/
def hasDocumentMark (vs : List Nat) : Bool :=
  [0x2D, 0x2D, 0x2D].isPrefixOf vs || [0x2E, 0x2E, 0x2E].isPrefixOf vs

/-- Does the first value forbid an unquoted scalar? -/
def badStart (inFlow : Bool) (vs : List Nat) : Bool :=
  match vs with
  | [] => false
  | v :: rest =>
    leadingIndicators.contains v
      || ((v == 0x3F || v == 0x3A) && (inFlow || endsWord rest.head?))
      || (v == 0x2D && endsWord rest.head?)

/-- Does a value after the first one forbid an unquoted scalar? The pair holds the value and the one
before it, `next` the one after it. -/
def badInside (inFlow : Bool) (prev v : Nat) (next : Option Nat) : Bool :=
  (inFlow && (flowIndicators.contains v || v == 0x3A))
    || (v == 0x3A && endsWord next)
    || (v == 0x23 && (isBlank prev || isBreak prev || prev == 0))

/-- Goes through the values after the first one. -/
def anyBadInside (inFlow : Bool) : List Nat → Bool
  | prev :: v :: rest => badInside inFlow prev v rest.head? || anyBadInside inFlow (v :: rest)
  | _ => false

/-- Can the text be written unquoted? -/
def plainAllowed (inFlow : Bool) (vs : List Nat) : Bool :=
  !(hasLooseEnd vs || vs.any (fun v => isBreak v || v == 0x09 || isSpecial v)
    || hasDocumentMark vs || badStart inFlow vs || anyBadInside inFlow vs)

/-- Can the text be written in single quotes? -/
def singleAllowed (vs : List Nat) : Bool :=
  !(hasBreakSpace vs || hasSpaceBreak vs || vs.any fun v => v == 0x09 || isSpecial v)

/-- Can the text be written as a literal block? -/
def literalAllowed (vs : List Nat) : Bool :=
  !(vs.getLast? == some 0x20 || hasSpaceBreak vs || vs.any isSpecial)

/-- The style of a text that may be written unquoted if `loose` is set. -/
def style (inFlow loose : Bool) (s : Bytes) : Style :=
  let vs := Utf8.scalars s
  if vs.contains 0x0A then
    if !inFlow && literalAllowed vs then .literal else .double
  else if !loose then .double
  else if plainAllowed inFlow vs then .plain
  else if singleAllowed vs then .single
  else .double

/-- The short escapes of double quotes. -/
def shortEscapes : List (Nat × UInt8) := [
  (0x00, 0x30), (0x07, 0x61), (0x08, 0x62), (0x09, 0x74), (0x0A, 0x6E), (0x0B, 0x76), (0x0C, 0x66),
  (0x0D, 0x72), (0x1B, 0x65), (0x22, 0x22), (0x5C, 0x5C), (0x85, 0x4E), (0xA0, 0x5F),
  (0x2028, 0x4C), (0x2029, 0x50)]

/-- Hexadecimal digits in upper case. -/
def upperHex (width v : Nat) : Bytes :=
  (Decimal.hex width v).map fun b => if 0x61 ≤ b then b - 32 else b

/-- An escape of double quotes. -/
def escape (v : Nat) : Bytes :=
  0x5C :: match shortEscapes.lookup v with
    | some letter => [letter]
    | none =>
      if v ≤ 0xFF then 0x78 :: upperHex 2 v
      else if v ≤ 0xFFFF then 0x75 :: upperHex 4 v
      else 0x55 :: upperHex 8 v

/-- How a value is written in double quotes. -/
def doubleValue (v : Nat) : Bytes :=
  if !isPrintable v || isBreak v || v == 0x22 || v == 0x5C then escape v else Utf8.encode v

/-- The text in double quotes. -/
def writeDouble (s : Bytes) : Bytes :=
  0x22 :: (Utf8.scalars s).flatMap doubleValue ++ [0x22]

/-- Puts blanks before each value that follows a line break; `fresh` says whether the first value
does. -/
def indentLines (indent : Nat) (f : Nat → Bytes) (fresh : Bool) : List Nat → Bytes
  | [] => []
  | v :: rest =>
    if isBreak v then Utf8.encode v ++ indentLines indent f true rest
    else (if fresh then Bytes.blanks indent else []) ++ f v ++ indentLines indent f false rest

/-- How a value is written in single quotes. -/
def singleValue (v : Nat) : Bytes :=
  if v == 0x27 then [0x27, 0x27] else Utf8.encode v

/-- The text in single quotes; only line and paragraph separators can break its lines. -/
def writeSingle (indent : Nat) (s : Bytes) : Bytes :=
  0x27 :: indentLines indent singleValue false (Utf8.scalars s) ++ [0x27]

/-- The indicator of a literal block that begins with a space or a line break. -/
def indentHint (step : Nat) (vs : List Nat) : Bytes :=
  if vs.head?.any fun v => v == 0x20 || isBreak v then Decimal.ofNat step else []

/-- The indicator of what happens to line breaks at the end of a literal block: `-` if there is
none, `+` if there are several, or the text is one line break, and nothing if there is one. -/
def chompHint (vs : List Nat) : Bytes :=
  match vs.reverse with
  | [] => "-"
  | [v] => if isBreak v then "+" else "-"
  | v :: w :: _ => if !isBreak v then "-" else if isBreak w then "+" else []

/-- The text as a literal block. -/
def writeLiteral (place : Place) (s : Bytes) : Bytes :=
  let vs := Utf8.scalars s
  let header := 0x7C :: (indentHint place.step vs ++ chompHint vs)
  let gap := if vs.head?.any isBreak then [] else [Bytes.lf]
  header ++ gap ++ indentLines place.indent Utf8.encode true vs

/-- The text in a given style. -/
def writeIn (place : Place) (s : Bytes) : Style → Bytes
  | .plain => s
  | .single => writeSingle place.indent s
  | .literal => writeLiteral place s
  | _ => writeDouble s

/-- The pieces of `width` bytes that a text consists of, the last one possibly shorter. -/
def pieces (width : Nat) (s : Bytes) : List Bytes :=
  if _h : s = [] ∨ width = 0 then [] else s.take width :: pieces width (s.drop width)
termination_by s.length
decreasing_by
  have := List.length_pos_iff.2 (fun e => _h (.inl e))
  rw [List.length_drop]
  omega

/-- The letters of base64 in one line. -/
def base64Width : Nat := 70

/-- Breaks base64 letters that fill a line into lines, each ended. -/
def base64Lines (letters : Bytes) : Bytes :=
  if letters.length < base64Width then letters else Bytes.unlines (pieces base64Width letters)

/-- The text as a scalar. -/
def write (place : Place) (s : Bytes) : Bytes :=
  if Utf8.isValid s then writeIn place s (style place.inFlow (!needsQuotes s) s)
  else
    let letters := base64Lines (Base64.encode s)
    Tag.binary.name ++ Bytes.space :: writeIn place letters (style place.inFlow true letters)

end Scalar

end ForthFrontend.Yaml
