import ForthFrontend.Text.Base64
import ForthFrontend.Text.Quoted
import ForthFrontend.Yaml.Node
import ForthFrontend.Yaml.Problem

/-!
# From nodes to values

A node is taken as a value of an expected kind. A node of another kind is a mismatch; mismatches are
collected and the rest of the document is looked at nevertheless. Some problems end the reading at
once: a scalar that does not fit its own tag, an alias inside the node it stands for, and a merge
key with something else than mappings.

A mapping in which two keys have the same text is skipped as a whole.

## Main definitions

* `Yaml.Mismatch`: a node of an unexpected kind, or a key that is given twice.
* `Yaml.Decode`: reading with collected mismatches.
* `Yaml.Scope`: the anchors, and the aliases that are being followed.
* `Yaml.text`, `Yaml.integer`, `Yaml.list`, `Yaml.record`: nodes as values.
-/

namespace ForthFrontend.Yaml

/-- What does not fit in a document. -/
inductive Mismatch where
  /-- A node with a tag and a text where something else was wanted. -/
  | kind (line : Nat) (tag : Tag) (text : Bytes) (wanted : Bytes)
  | repeatedKey (line : Nat) (key : Bytes) (earlier : Nat)
  | repeatedField (line : Nat) (field wanted : Bytes)
  deriving Repr, DecidableEq, Inhabited

namespace Mismatch

/-- A text as it appears in the wording of a mismatch: only the beginning of a long one. -/
def excerpt (s : Bytes) : Bytes :=
  if s.length > 10 then s.take 7 ++ "..." else s

/-- What is said about the text of a node; nothing for a collection. -/
def textPart (tag : Tag) (text : Bytes) : Bytes :=
  if tag == .sequence || tag == .mapping then text else " `" ++ excerpt text ++ "`"

/-- The wording of a mismatch. -/
def message : Mismatch → Bytes
  | kind line tag text wanted =>
    "line " ++ Decimal.ofNat line ++ ": cannot unmarshal " ++ tag.name ++ textPart tag text
      ++ " into " ++ wanted
  | repeatedKey line key earlier =>
    "line " ++ Decimal.ofNat line ++ ": mapping key " ++ Text.quoted key
      ++ " already defined at line " ++ Decimal.ofNat earlier
  | repeatedField line field wanted =>
    "line " ++ Decimal.ofNat line ++ ": field " ++ field ++ " already set in type " ++ wanted

/-- The wording of several mismatches. -/
def report (ms : List Mismatch) : Bytes :=
  "yaml: unmarshal errors:\n  " ++ Bytes.joinWith "\n  " (ms.map message)

end Mismatch

/-- Reading with the mismatches so far, latest first. -/
abbrev Decode := StateT (List Mismatch) (Except Problem)

/-- Notes a mismatch. -/
def Decode.note (m : Mismatch) : Decode PUnit :=
  modify (m :: ·)

/-- The anchors of a document, and the aliases that are being followed. -/
structure Scope where
  anchors : List (Nat × Node)
  active : List Nat := []
  deriving Inhabited

/-- Reads the node that an alias stands for, or the node itself. -/
def Scope.follow {α : Type} (s : Scope) (n : Node) (read : Scope → Node → Decode α) : Decode α :=
  match n with
  | .reference name ordinal target _ =>
    if s.active.contains ordinal then throw (.selfContaining name)
    else
      match s.anchors.lookup target with
      | some m => read { s with active := ordinal :: s.active } m
      | none => throw (.unknownAnchor name)
  | n => read s n

/-- What a scalar with a tag stands for. -/
inductive Scalar.Content where
  | null
  | boolean (value : Bool)
  | integer (value : Int)
  | float (value : Binary64)
  | time (value : Timestamp)
  | text (value : Bytes)
  deriving Repr, DecidableEq, Inhabited

/-- What a text means, as content. -/
def Meaning.content (text : Bytes) : Meaning → Scalar.Content
  | .null => .null
  | .boolean b => .boolean b
  | .integer n => .integer n
  | .float f => .float f
  | .time t => .time t
  | .merge | .text => .text text

/-- What a scalar stands for. With a tag of a meaning its text must have that meaning; an integer
can be tagged as a floating point number. With any other tag it is a text. -/
def scalarContent (tag : Tag) (s : Bytes) : Except Problem Scalar.Content :=
  match tag with
  | .binary =>
    match Base64.decode? s with
    | some bytes => .ok (.text bytes)
    | none => .error .badBinary
  | .null | .boolean | .integer | .float | .time =>
    let m := meaningOf (tag == .time) s
    if m.tag == tag then .ok (m.content s)
    else
      match m with
      | .integer n =>
        if tag == .float && Decimal.fitsInt64 n then .ok (.float (.ofInt n))
        else .error (.badTag m.tag s tag)
      | m => .error (.badTag m.tag s tag)
  | _ => .ok (.text s)

/-- The pairs of keys of a mapping that have the same text. -/
def repeatedKeys : List Node → List Mismatch
  | [] => []
  | k :: rest =>
    (rest.filter fun r => r.kind == k.kind && r.label == k.label).map
        (fun r => .repeatedKey r.line r.label k.line)
      ++ repeatedKeys rest

/-- Notes keys that are given twice; is there none? -/
def checkKeys (entries : List (Node × Node)) : Decode Bool := do
  let found := repeatedKeys (entries.map Prod.fst)
  modify (found.reverse ++ ·)
  return found.isEmpty

/-- Notes that a collection or scalar stands where something else was wanted. -/
def refuse (wanted : Bytes) : Node → Decode PUnit
  | .scalar tag s line => Decode.note (.kind line tag s wanted)
  | .sequence tag _ line => Decode.note (.kind line tag [] wanted)
  | .mapping tag entries line => do
    if ← checkKeys entries then Decode.note (.kind line tag [] wanted)
  | .reference _ _ _ _ => pure ⟨⟩

/-- A node as a text: the text of any scalar, except that nothing is no text. -/
def text (s : Scope) (n : Node) : Decode (Option Bytes) :=
  s.follow n fun _ n => do
    match n with
    | .scalar tag text _ =>
      match ← scalarContent tag text with
      | .null => return none
      | .text value => return some value
      | _ => return some text
    | n =>
      refuse "string" n
      return none

/-- A node as an integer of 64 bits; the fraction of a number is dropped. -/
def integer (s : Scope) (n : Node) : Decode (Option Int) :=
  s.follow n fun _ n => do
    match n with
    | .scalar tag text _ =>
      let value := match ← scalarContent tag text with
        | .null => some none
        | .integer n => if Decimal.fitsInt64 n then some (some n) else none
        | .float f => if f.atMostInt64 then some (some f.truncate.toInt) else none
        | _ => none
      match value with
      | some value => return value
      | none =>
        refuse "int" n
        return none
    | n =>
      refuse "int" n
      return none

/-- A node as a list; items that are no values are left out. -/
def list {α : Type} (wanted : Bytes) (item : Scope → Node → Decode (Option α)) (s : Scope)
    (n : Node) : Decode (Option (List α)) :=
  s.follow n fun s n => do
    match n with
    | .scalar tag text _ =>
      if (← scalarContent tag text) == .null then return some []
      else
        refuse wanted n
        return none
    | .sequence _ items _ => return some (← items.filterMapM (item s))
    | n =>
      refuse wanted n
      return none

/-- Is the node the key of mappings to be merged? -/
def isMergeKey : Node → Bool
  | .scalar tag text _ => tag == .merge && text == Bytes.ofString "<<"
  | _ => false

/-- Is the node a mapping, or an alias of one? -/
def isMapping (s : Scope) : Node → Bool
  | .mapping _ _ _ => true
  | .reference _ _ target _ => (s.anchors.lookup target).any (·.kind == .mapping)
  | _ => false

/-- The nodes to be merged that a merge key has as its value. -/
def mergeSources (s : Scope) (n : Node) : Except Problem (List Node) :=
  let sources := match n with
    | .sequence _ items _ => items
    | n => [n]
  if sources.all (isMapping s) then .ok sources else .error .badMerge

/-- A field of a record: its name, and what its value does to the record. -/
structure Field (α : Type) where
  name : Bytes
  set : Scope → Node → α → Decode α

/-- What is known while the entries of a mapping are gone through: the record, its fields so far,
the names that merged mappings cannot set any more, and the value of the merge key. -/
structure Progress (α : Type) where
  value : α
  done : List Bytes := []
  taken : Option (List Bytes) := none
  merge : Option Node := none

/-- Takes one entry of a mapping into account. -/
def Progress.add {α : Type} (wanted : Bytes) (fields : List (Field α)) (s : Scope)
    (p : Progress α) (entry : Node × Node) : Decode (Progress α) := do
  if isMergeKey entry.1 then return { p with merge := some entry.2 }
  else
    match ← text s entry.1 with
    | none => return p
    | some name =>
      if p.taken.any (·.contains name) then return p
      else
        let p := { p with taken := p.taken.map (name :: ·) }
        match fields.find? (·.name == name) with
        | none => return p
        | some field =>
          if p.done.contains name then
            Decode.note (.repeatedField entry.1.line name wanted)
            return p
          else
            return { p with value := ← field.set s entry.2 p.value, done := name :: p.done }

/-- The texts of the keys of a mapping. -/
def keyTexts (s : Scope) (entries : List (Node × Node)) : Decode (List Bytes) :=
  entries.filterMapM fun e => text s e.1

mutual

/-- Goes through the entries of a mapping, then through the mappings merged into it. -/
def recordEntries {α : Type} (fuel : Nat) (wanted : Bytes) (fields : List (Field α)) (s : Scope)
    (entries : List (Node × Node)) (value : α) (taken : Option (List Bytes)) :
    Decode (α × Option (List Bytes)) := do
  match fuel with
  | 0 => return (value, taken)
  | fuel + 1 =>
    let p ← entries.foldlM (Progress.add wanted fields s) { value := value, taken := taken }
    match p.merge with
    | none => return (p.value, p.taken)
    | some n =>
      let names ← match p.taken with
        | some names => pure names
        | none => keyTexts s entries
      let sources ← mergeSources s n
      let (value, names) ← recordMerge fuel wanted fields s sources p.value names
      return (value, p.taken.map fun _ => names)

/-- Goes through the mappings merged into a record. -/
def recordMerge {α : Type} (fuel : Nat) (wanted : Bytes) (fields : List (Field α)) (s : Scope)
    (sources : List Node) (value : α) (names : List Bytes) : Decode (α × List Bytes) := do
  match fuel, sources with
  | fuel + 1, n :: rest =>
    let (value, names) ← s.follow n fun s n => do
      match n with
      | .mapping _ entries _ =>
        if ← checkKeys entries then
          let (value, taken) ← recordEntries fuel wanted fields s entries value (some names)
          return (value, taken.getD names)
        else return (value, names)
      | _ => return (value, names)
    recordMerge fuel wanted fields s rest value names
  | _, _ => return (value, names)

end

/-- A node as a record, starting from a given value. Unknown keys are ignored. -/
def record {α : Type} (fuel : Nat) (wanted : Bytes) (fields : List (Field α)) (start : α)
    (s : Scope) (n : Node) : Decode (Option α) :=
  s.follow n fun s n => do
    match n with
    | .scalar tag text _ =>
      if (← scalarContent tag text) != .null then refuse wanted n
      return none
    | .mapping _ entries _ =>
      if ← checkKeys entries then
        return some (← recordEntries fuel wanted fields s entries start none).1
      else return none
    | n =>
      refuse wanted n
      return none

/-- How a text fails to be a document of the expected shape. -/
inductive ReadError where
  /-- There is no document. -/
  | empty
  | unreadable (e : SyntaxError)
  | mismatches (ms : List Mismatch)
  deriving Repr, DecidableEq, Inhabited

/-- The wording of a failed reading. -/
def ReadError.message : ReadError → Bytes
  | empty => "EOF"
  | unreadable e => e.message
  | mismatches ms => Mismatch.report ms

/-- Reads a tree as a value. -/
def Tree.decode {α : Type} (t : Tree) (read : Scope → Node → Decode α) : Except ReadError α :=
  match (read { anchors := t.anchors } t.root).run [] with
  | .error p => .error (.unreadable ⟨0, p⟩)
  | .ok (value, []) => .ok value
  | .ok (_, ms) => .error (.mismatches ms.reverse)

end ForthFrontend.Yaml
