import ForthFrontend.Text.CaseTable
import ForthFrontend.Text.Utf8

/-!
# Letter case

Two notions of case are in use. Keywords are compared by *folding*: two texts agree when the simple
case foldings of their scalar values agree, a stray byte counting as the replacement character.
Defined names are compared by their *upper-case* form. The two notions differ on a few letters, for
instance on the dotless i, which is its own folding but has the upper-case form `I`.

## Main definitions

* `Bytes.toUpper`, `Bytes.toLower`: the simple case mappings, applied to each unit.
* `Bytes.foldKey`, `Bytes.equalFold`: comparison by simple case folding.
-/

namespace ForthFrontend

namespace Case

/-- Is `v` one of the values that `run` moves? -/
def CaseRun.holds (run : CaseRun) (v : Nat) : Bool :=
  run.first ≤ v && v ≤ run.last && (v - run.first) % run.step == 0

/-- Moves `v` by the run that holds it. -/
def move (runs : List CaseRun) (v : Nat) : Nat :=
  match runs.find? (·.holds v) with
  | some run => (v + run.shift).toNat
  | none => v

/-- The simple upper-case mapping. -/
def upper (v : Nat) : Nat :=
  if v < 0x80 then (if 0x61 ≤ v ∧ v ≤ 0x7A then v - 32 else v) else move upperRuns v

/-- The simple lower-case mapping. -/
def lower (v : Nat) : Nat :=
  if v < 0x80 then (if 0x41 ≤ v ∧ v ≤ 0x5A then v + 32 else v) else move lowerRuns v

/-- Simple case folding. -/
def fold (v : Nat) : Nat :=
  if v < 0x80 then (if 0x41 ≤ v ∧ v ≤ 0x5A then v + 32 else v) else move foldRuns v

end Case

namespace Bytes

/-- The text with every scalar value mapped by `f`; a stray byte becomes the image of the
replacement character. -/
def mapScalars (f : Nat → Nat) (s : Bytes) : Bytes :=
  (Utf8.scalars s).flatMap fun v => Utf8.encode (f v)

/-- The upper-case form of a text, scalar value by scalar value. -/
def toUpper (s : Bytes) : Bytes :=
  mapScalars Case.upper s

/-- The lower-case form of a text, scalar value by scalar value. -/
def toLower (s : Bytes) : Bytes :=
  mapScalars Case.lower s

/-- The folded scalar values of a text. -/
def foldKey (s : Bytes) : List Nat :=
  (Utf8.scalars s).map Case.fold

/-- Do two texts agree up to letter case? -/
def equalFold (s t : Bytes) : Bool :=
  foldKey s == foldKey t

end Bytes

end ForthFrontend
