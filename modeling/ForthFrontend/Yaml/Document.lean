import ForthFrontend.Yaml.Scalar

/-!
# Writing documents

A document is a tree of records and lists over scalars. Records and lists are written in block
style, one field or item to a line; a list inside a record is indented. Lists of texts can be
written in flow style on one line.

## Main definitions

* `Yaml.Document`: trees to be written.
* `Yaml.Document.write`: the written form of a record.
-/

namespace ForthFrontend.Yaml

/-- A document to be written. -/
inductive Document where
  /-- A text, quoted as needed. -/
  | text (value : Bytes)
  /-- A number or a truth value, written as it is. -/
  | bare (value : Bytes)
  /-- Texts in flow style. -/
  | flow (items : List Bytes)
  | list (items : List Document)
  | record (fields : List (Bytes × Document))
  deriving Repr, Inhabited

namespace Document

/-- An integer. -/
def integer (n : Int64) : Document := bare (Decimal.ofInt64 n)

/-- A truth value. -/
def boolean (b : Bool) : Document := bare (if b then "true" else "false")

/-- The next level of indentation. -/
def deeper (step indent : Nat) : Nat :=
  step * ((indent + step) / step)

/-- The text followed by a line feed, unless a line break ends it already. -/
def endLine (s : Bytes) : Bytes :=
  if (Utf8.scalars s).getLast?.any isBreak then s else s ++ [Bytes.lf]

mutual

/-- Writes what follows the name of a field in a record indented by `indent`. -/
def writeValue (step indent : Nat) : Document → Bytes
  | text s => endLine (Bytes.space :: Scalar.write ⟨false, deeper step indent, step⟩ s)
  | bare s => endLine (Bytes.space :: s)
  | flow items =>
    let place : Place := ⟨true, deeper step (deeper step indent), step⟩
    endLine (" [" ++ Bytes.joinWith ", " (items.map (Scalar.write place)) ++ "]")
  | list [] => endLine " []"
  | list (item :: items) => Bytes.lf :: writeItems step (deeper step indent) (item :: items)
  | record [] => endLine " \x7b\x7d"
  | record (field :: fields) =>
    Bytes.lf :: writeFields step (deeper step indent) false (field :: fields)

/-- Writes the items of a list indented by `indent`. -/
def writeItems (step indent : Nat) : List Document → Bytes
  | [] => []
  | item :: items =>
    Bytes.blanks indent ++ (0x2D :: writeItem step indent item) ++ writeItems step indent items

/-- Writes what follows the dash of an item. -/
def writeItem (step indent : Nat) : Document → Bytes
  | text s => endLine (Bytes.space :: Scalar.write ⟨false, indent + 2, step⟩ s)
  | bare s => endLine (Bytes.space :: s)
  | flow items =>
    let place : Place := ⟨true, deeper step (indent + 2), step⟩
    endLine (" [" ++ Bytes.joinWith ", " (items.map (Scalar.write place)) ++ "]")
  | list items => Bytes.space :: writeItems step (indent + 2) items
  | record fields => Bytes.space :: writeFields step (indent + 2) true fields

/-- Writes the fields of a record indented by `indent`; the first one may stand behind a dash. -/
def writeFields (step indent : Nat) (behindDash : Bool) : List (Bytes × Document) → Bytes
  | [] => []
  | (name, value) :: fields =>
    (if behindDash then [] else Bytes.blanks indent) ++ name ++
      (0x3A :: writeValue step indent value) ++ writeFields step indent false fields

end

/-- The written form of a record. -/
def write (step : Nat) (fields : List (Bytes × Document)) : Bytes :=
  writeFields step 0 false fields

end Document

end ForthFrontend.Yaml
