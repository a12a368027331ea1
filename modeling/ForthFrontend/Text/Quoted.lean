import ForthFrontend.Text.Decimal
import ForthFrontend.Text.PrintableTable
import ForthFrontend.Text.Space

/-!
# Quoted text

Text in diagnostics and listings is shown between quotation marks. Printable scalar values stand for
themselves, control characters have short names, and everything else is written as an escape:
`\u` with four or `\U` with eight hexadecimal digits for a scalar value, `\x` with two for a stray
byte or an ASCII control character.
-/

namespace ForthFrontend.Text

/-- Is the scalar value printable? -/
def isPrintable (v : Nat) : Bool :=
  if v < 0x7F then 0x20 ≤ v else Bytes.inRanges printableRanges v

/-- The letter of a control character that has a short escape. -/
def shortEscape? (v : Nat) : Option UInt8 :=
  match v with
  | 0x07 => some 0x61
  | 0x08 => some 0x62
  | 0x0C => some 0x66
  | 0x0A => some 0x6E
  | 0x0D => some 0x72
  | 0x09 => some 0x74
  | 0x0B => some 0x76
  | _ => none

/-- A backslash, a letter and hexadecimal digits. -/
def escape (letter : UInt8) (width v : Nat) : Bytes :=
  0x5C :: letter :: Decimal.hex width v

/-- How one scalar value is shown inside quotation marks. -/
def quoteScalar (v : Nat) (bytes : Bytes) : Bytes :=
  if v == 0x22 || v == 0x5C then 0x5C :: bytes
  else if isPrintable v then bytes
  else match shortEscape? v with
    | some letter => [0x5C, letter]
    | none =>
      if v < 0x80 then escape 0x78 2 v
      else if v < 0x10000 then escape 0x75 4 v
      else escape 0x55 8 v

/-- How one unit is shown inside quotation marks. -/
def quoteUnit : Utf8.Unit → Bytes
  | .scalar v bytes => quoteScalar v bytes
  | .stray b => escape 0x78 2 b.toNat

/-- The text between quotation marks, with escapes. -/
def quoted (s : Bytes) : Bytes :=
  Bytes.quote :: (Utf8.units s).flatMap quoteUnit ++ [Bytes.quote]

end ForthFrontend.Text
