import ForthFrontend.Text.Bytes

/-!
# Base64

Bytes written with 64 letters, three bytes as four letters, the last group padded.
-/

namespace ForthFrontend.Base64

/-- The letters, in the order of their values. -/
def alphabet : Bytes :=
  "ABCDEFGHIJKLMNOPQRSTUVWXYZabcdefghijklmnopqrstuvwxyz0123456789+/"

/-- The letter that pads the last group. -/
def pad : UInt8 := 0x3D

/-- The letter of a six-bit value. -/
def letter (v : Nat) : UInt8 :=
  alphabet.getD v pad

/-- The six-bit value of a letter. -/
def value? (b : UInt8) : Option Nat :=
  alphabet.findIdx? (· == b)

/-- The letters of a byte string. -/
def encode : Bytes → Bytes
  | a :: b :: c :: rest =>
    let n := (a.toNat * 256 + b.toNat) * 256 + c.toNat
    letter (n / 262144) :: letter (n / 4096 % 64) :: letter (n / 64 % 64) :: letter (n % 64)
      :: encode rest
  | [a, b] =>
    let n := (a.toNat * 256 + b.toNat) * 256
    [letter (n / 262144), letter (n / 4096 % 64), letter (n / 64 % 64), pad]
  | [a] =>
    let n := a.toNat * 65536
    [letter (n / 262144), letter (n / 4096 % 64), pad, pad]
  | [] => []

/-- The value of a group of four letters. -/
def groupValue (a b c d : Nat) : Nat :=
  ((a * 64 + b) * 64 + c) * 64 + d

/-- Reads groups of four letters; only the last one may be padded. -/
def decodeGroups (found : Bytes) : Bytes → Option Bytes
  | [] => some found.reverse
  | a :: b :: c :: d :: rest => do
    let va ← value? a
    let vb ← value? b
    if c == pad then
      if d == pad && rest.isEmpty then
        return ((va * 4 + vb / 16).toUInt8 :: found).reverse
      else none
    else
      let vc ← value? c
      if d == pad then
        if rest.isEmpty then
          return ((vb % 16 * 16 + vc / 4).toUInt8 :: (va * 4 + vb / 16).toUInt8 :: found).reverse
        else none
      else
        let vd ← value? d
        let n := groupValue va vb vc vd
        decodeGroups (n.toUInt8 :: (n / 256).toUInt8 :: (n / 65536).toUInt8 :: found) rest
  | _ => none

/-- The bytes that some letters stand for; line breaks between the letters do not count. -/
def decode? (s : Bytes) : Option Bytes :=
  decodeGroups [] (s.filter fun b => b != Bytes.lf && b != Bytes.cr)

end ForthFrontend.Base64
