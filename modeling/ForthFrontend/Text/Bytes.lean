/-!
# Byte strings

Source text, file names and printed output need not be valid UTF-8, so all of them are kept as
byte strings. A text literal enters as the UTF-8 bytes of the literal.

## Main definitions

* `Bytes`, with `Bytes.ofString` as the coercion from text literals.
* `Bytes.startsWith`, `Bytes.endsWith`, `Bytes.hasInfix`: comparison with a part of a text.
* `Bytes.unlines`, `Bytes.joinWith`: putting texts together.
-/

namespace ForthFrontend

/-- A string of bytes, not necessarily valid UTF-8. -/
abbrev Bytes := List UInt8

namespace Bytes

/-- The UTF-8 bytes of a text. -/
def ofString (s : String) : Bytes :=
  s.toList.flatMap String.utf8EncodeChar

instance : Coe String Bytes := ⟨ofString⟩

/-- The byte of an ASCII character. -/
def ofAscii (c : Char) : UInt8 :=
  c.toNat.toUInt8

/-- The line feed, which ends a line. -/
def lf : UInt8 := 0x0A

/-- The carriage return. -/
def cr : UInt8 := 0x0D

/-- The space. -/
def space : UInt8 := 0x20

/-- The quotation mark, which delimits string literals. -/
def quote : UInt8 := 0x22

/-- The slash, which separates the elements of a path. -/
def slash : UInt8 := 0x2F

/-- The full stop. -/
def dot : UInt8 := 0x2E

/-- Does `s` begin with `start`? -/
def startsWith (s start : Bytes) : Bool :=
  start.isPrefixOf s

/-- Does `s` end with `tail`? -/
def endsWith (s tail : Bytes) : Bool :=
  tail.isSuffixOf s

/-- Does `part` occur somewhere in `s`? -/
def hasInfix (s part : Bytes) : Bool :=
  match s with
  | [] => part.isEmpty
  | b :: rest => part.isPrefixOf (b :: rest) || hasInfix rest part

/-- The texts one after another, with `sep` between neighbours. -/
def joinWith (sep : Bytes) (parts : List Bytes) : Bytes :=
  sep.intercalate parts

/-- The texts one after another, each ended by a line feed. -/
def unlines (lines : List Bytes) : Bytes :=
  lines.flatMap (· ++ [lf])

/-- `n` copies of one byte. -/
def fill (n : Nat) (b : UInt8) : Bytes :=
  List.replicate n b

/-- `n` spaces. -/
def blanks (n : Nat) : Bytes :=
  fill n space

/-- Removes the bytes satisfying `p` from the end of `s`. -/
def dropEndWhile (p : UInt8 → Bool) (s : Bytes) : Bytes :=
  (s.reverse.dropWhile p).reverse

/-- Removes the bytes satisfying `p` from both ends of `s`. -/
def trimBoth (p : UInt8 → Bool) (s : Bytes) : Bytes :=
  dropEndWhile p (s.dropWhile p)

/-- Is `b` an ASCII digit? -/
def isDigit (b : UInt8) : Bool :=
  0x30 ≤ b && b ≤ 0x39

/-- The value of an ASCII digit. -/
def digitValue (b : UInt8) : Nat :=
  b.toNat - 0x30

/-- Orders byte strings by their first difference, a proper beginning coming first. -/
def le : Bytes → Bytes → Bool
  | [], _ => true
  | _ :: _, [] => false
  | a :: s, b :: t => a < b || (a == b && le s t)

end Bytes

end ForthFrontend
