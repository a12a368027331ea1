import ForthFrontend.Text.Case
import ForthFrontend.Yaml.Tree
import ForthFrontend.Yaml.Value

/-!
# Documents of any shape

A document whose shape is not known beforehand is read as data: scalars with their meanings, lists,
and maps whose keys are texts. A key that is no text is taken as the text that its meaning is
written as.

The entries of merged mappings come after those of the mapping itself and never replace them.

## Main definitions

* `Yaml.Data`: the data of a document.
* `Yaml.Data.toText`, `Yaml.Data.toBool`, `Yaml.Data.toInt`: data as a value of a given kind.
* `Yaml.Data.readMap`: the map that a document holds.
-/

namespace ForthFrontend.Yaml

/-- The data of a document. -/
inductive Data where
  | null
  | boolean (value : Bool)
  | integer (value : Int)
  | float (value : Binary64)
  | time (value : Timestamp)
  | text (value : Bytes)
  | list (items : List Data)
  | map (entries : List (Bytes × Data))
  deriving Repr, Inhabited

namespace Data

/-- The data of a scalar. -/
def ofContent : Scalar.Content → Data
  | .null => null
  | .boolean b => boolean b
  | .integer n => integer n
  | .float f => float f
  | .time t => time t
  | .text s => text s

/-- Is the data nothing at all? -/
def isNull : Data → Bool
  | null => true
  | _ => false

/-- The entries of a map, if the data is one. -/
def entries? : Data → Option (List (Bytes × Data))
  | map es => some es
  | _ => none

/-- Data as a text; lists and maps have none. -/
def toText : Data → Bytes
  | boolean b => if b then "true" else "false"
  | integer n => Decimal.ofInt n
  | float f => f.render
  | time t => t.render
  | text s => s
  | null | list _ | map _ => []

/-- The texts that stand for a truth value. -/
def truths : List (Bytes × Bool) := [
  ("1", true), ("t", true), ("T", true), ("true", true), ("TRUE", true), ("True", true),
  ("0", false), ("f", false), ("F", false), ("false", false), ("FALSE", false), ("False", false)]

/-- The truth value that a text stands for. -/
def truth? (s : Bytes) : Option Bool :=
  truths.lookup s

/-- Data as a truth value; what stands for none is taken as false. -/
def toBool : Data → Bool
  | boolean b => b
  | integer n => n != 0
  | float f => !f.isZero
  | text s => (truth? s).getD false
  | null | time _ | list _ | map _ => false

/-- The text without a fraction that consists of zeros. -/
def dropZeroFraction (s : Bytes) : Bytes :=
  let zeros := s.reverse.takeWhile (· == 0x30)
  match s.reverse.drop zeros.length with
  | 0x2E :: rest => if zeros.isEmpty then s else rest.reverse
  | _ => s

/-- Data as an integer, cut to 64 bits; what stands for none is taken as zero. -/
def toInt : Data → Int64
  | boolean b => if b then 1 else 0
  | integer n => Int64.ofInt n
  | float f => f.truncate
  | text s => (Decimal.readBased? (dropZeroFraction s)).getD 0
  | null | time _ | list _ | map _ => 0

/-- Is the data a list or a map? -/
def isCollection : Data → Bool
  | list _ | map _ => true
  | _ => false

/-- The entries with one more at the end, or with another value for its key. -/
def putEntry (es : List (Bytes × Data)) (key : Bytes) (value : Data) : List (Bytes × Data) :=
  if es.any (·.1 == key) then es.map fun e => if e.1 == key then (key, value) else e
  else es ++ [(key, value)]

/-- The data with the letters of all keys of maps in lower case. -/
def lowerKeys : Nat → Data → Data
  | fuel + 1, map es =>
    map (es.foldl (fun found e => putEntry found (Bytes.toLower e.1) (lowerKeys fuel e.2)) [])
  | fuel + 1, list items => list (items.map (lowerKeys fuel))
  | _, d => d

end Data

/-- How the keys of a mapping are taken: the text of a scalar as it stands, or the text of its
meaning. -/
inductive KeyReading where
  | asWritten
  | byMeaning
  deriving Repr, DecidableEq, Inhabited

/-- What is known while the entries of a mapping are gone through: the entries, the keys that merged
mappings cannot set any more, and the value of the merge key. -/
structure MapProgress where
  entries : List (Bytes × Data) := []
  taken : Option (List Bytes) := none
  merge : Option Node := none

mutual

/-- A node as data. A mapping with a repeated key is none. -/
def data (fuel : Nat) (s : Scope) (n : Node) : Decode (Option Data) := do
  match fuel with
  | 0 => return none
  | fuel + 1 =>
    s.follow n fun s n => do
      match n with
      | .scalar tag text _ => return some (.ofContent (← scalarContent tag text))
      | .sequence _ items _ => return some (.list (← items.filterMapM (data fuel s)))
      | .mapping _ entries _ =>
        if ← checkKeys entries then
          return some (.map (← mapEntries fuel .byMeaning s entries [] none).1)
        else return none
      | .reference _ _ _ _ => return none

/-- The key of an entry. Nothing is no key if keys are taken as they are written. -/
def dataKey (fuel : Nat) (reading : KeyReading) (s : Scope) (n : Node) :
    Decode (Option Bytes) := do
  match fuel, reading with
  | 0, _ => return none
  | _, .asWritten => text s n
  | fuel + 1, .byMeaning =>
    match ← data fuel s n with
    | none => return none
    | some d => if d.isCollection then throw .badKey else return some d.toText

/-- Takes one entry of a mapping into account. -/
def addEntry (fuel : Nat) (reading : KeyReading) (s : Scope) (p : MapProgress)
    (entry : Node × Node) : Decode MapProgress := do
  match fuel with
  | 0 => return p
  | fuel + 1 =>
    if isMergeKey entry.1 then return { p with merge := some entry.2 }
    else
      match ← dataKey fuel reading s entry.1 with
      | none => return p
      | some key =>
        if p.taken.any (·.contains key) then return p
        else
          let p := { p with taken := p.taken.map (key :: ·) }
          match ← data fuel s entry.2 with
          | none => return p
          | some value => return { p with entries := Data.putEntry p.entries key value }

/-- Goes through the entries of a mapping, then through the mappings merged into it. -/
def mapEntries (fuel : Nat) (reading : KeyReading) (s : Scope) (entries : List (Node × Node))
    (found : List (Bytes × Data)) (taken : Option (List Bytes)) :
    Decode (List (Bytes × Data) × Option (List Bytes)) := do
  match fuel with
  | 0 => return (found, taken)
  | fuel + 1 =>
    let p ← entries.foldlM (addEntry fuel reading s) { entries := found, taken := taken }
    match p.merge with
    | none => return (p.entries, p.taken)
    | some n =>
      let names ← match p.taken with
        | some names => pure names
        | none => entries.filterMapM fun e => dataKey fuel .byMeaning s e.1
      let sources ← mergeSources s n
      let (found, names) ← mergeInto fuel reading s sources p.entries names
      return (found, p.taken.map fun _ => names)

/-- Goes through the mappings merged into a map. -/
def mergeInto (fuel : Nat) (reading : KeyReading) (s : Scope) (sources : List Node)
    (found : List (Bytes × Data)) (names : List Bytes) :
    Decode (List (Bytes × Data) × List Bytes) := do
  match fuel, sources with
  | fuel + 1, n :: rest =>
    let (found, names) ← s.follow n fun s n => do
      match n with
      | .mapping _ entries _ =>
        if ← checkKeys entries then
          let (found, taken) ← mapEntries fuel reading s entries found (some names)
          return (found, taken.getD names)
        else return (found, names)
      | _ => return (found, names)
    mergeInto fuel reading s rest found names
  | _, _ => return (found, names)

end

/-- A node as a map whose keys are taken as they are written; nothing is an empty map. -/
def dataMap (fuel : Nat) (s : Scope) (n : Node) : Decode (List (Bytes × Data)) :=
  s.follow n fun s n => do
    let wanted : Bytes := "map[string]interface \x7b\x7d"
    match n with
    | .scalar tag text _ =>
      if (← scalarContent tag text) != .null then refuse wanted n
      return []
    | .mapping _ entries _ =>
      if ← checkKeys entries then return (← mapEntries fuel .asWritten s entries [] none).1
      else return []
    | n =>
      refuse wanted n
      return []

/-- How deep the reading of a document can go: every alias is followed at most once on the way. -/
def Tree.depthBound (t : Tree) : Nat :=
  3 * (t.size + 2) * (t.aliases + 2)

/-- The map that a document holds, with keys in lower case; no document is an empty map. -/
def Data.readMap (content : Bytes) : Except ReadError (List (Bytes × Data)) := do
  match ← (Tree.read content).mapError .unreadable with
  | none => return []
  | some t =>
    let es ← t.decode (dataMap t.depthBound)
    return ((Data.map es).lowerKeys t.depthBound).entries?.getD []

end ForthFrontend.Yaml
