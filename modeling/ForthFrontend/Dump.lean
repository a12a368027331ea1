import ForthFrontend.Output
import ForthFrontend.Source
import ForthFrontend.Yaml.Document
import ForthFrontend.Yaml.Tree
import ForthFrontend.Yaml.Value

/-!
# Atom dumps

A sequence of atoms can be saved as a document and loaded again. The document lists the files the
atoms come from and then the atoms, one record each.

## Main definitions

* `Dump.text`: the dump of a sequence of atoms.
* `Dump.save`: writes the dump of a sequence of atoms to a file.
* `Dump.decode`: the records of a dump.
* `Dump.load`: reads the dump at a path.
-/

namespace ForthFrontend.Dump

open Yaml (Document)

/-- The width of a level of indentation. -/
def step : Nat := 2

/-- The record of an atom. -/
def record (a : Atom) : Document :=
  .record [("text", .text a.text), ("kind", .text a.kind.name), ("file", .text a.file),
    ("line", .integer a.line)]

/-- The fields of a dump. -/
def fields (atoms : List Atom) : List (Bytes × Document) :=
  [("files", .list ((Atom.files atoms).map .text)), ("atoms", .list (atoms.map record))]

/-- The dump of a sequence of atoms. -/
def text (atoms : List Atom) : Bytes :=
  Document.write step (fields atoms)

/-- How the saving of a dump is recorded. -/
def report : Output.Report where
  done := .dumpSaved
  undone := .dumpUnwritten
  failure := .dumpUnwritten

/-- Saves the dump of a sequence of atoms. -/
def save (d : Disk) (cancelled : Bool) (path : Path) (atoms : List Atom) : Recorded Path :=
  Output.save report d cancelled path (text atoms)

/-- The record of an atom as it stands in a dump, with any kind. -/
structure Entry where
  text : Bytes := []
  kind : Bytes := []
  file : Bytes := []
  line : Int := 0
  deriving Repr, DecidableEq, Inhabited

/-- A field that holds a text. -/
def textField (name : Bytes) (set : Bytes → Entry → Entry) : Yaml.Field Entry where
  name := name
  set s n e := do return ((← Yaml.text s n).map (set · e)).getD e

/-- The fields of a record. -/
def entryFields : List (Yaml.Field Entry) := [
  textField "text" fun v e => { e with text := v },
  textField "kind" fun v e => { e with kind := v },
  textField "file" fun v e => { e with file := v },
  { name := "line"
    set := fun s n e => do return ((← Yaml.integer s n).map ({ e with line := · })).getD e }]

/-- A document as it stands in a file. -/
structure Content where
  files : List Bytes := []
  entries : List Entry := []
  deriving Repr, DecidableEq, Inhabited

/-- The fields of a document. -/
def contentFields (fuel : Nat) : List (Yaml.Field Content) := [
  { name := "files"
    set := fun s n c => do
      return ((← Yaml.list "[]string" Yaml.text s n).map ({ c with files := · })).getD c },
  { name := "atoms"
    set := fun s n c => do
      let item := Yaml.record fuel "adapter.atomRecord" entryFields {}
      return ((← Yaml.list "[]adapter.atomRecord" item s n).map ({ c with entries := · })).getD c }]

/-- The records of a dump. -/
def decode (content : Bytes) : Except Yaml.ReadError (List Entry) := do
  match ← (Yaml.Tree.read content).mapError .unreadable with
  | none => throw .empty
  | some t =>
    let found ← t.decode (Yaml.record t.size "adapter.atomDocument" (contentFields t.size) {})
    return (found.getD {}).entries

/-- The atoms of records, the first of which has number `index`. A kind that no atom has is
refused. -/
def atomsOf (path : Path) (index : Nat) : List Entry → Except Failure (List Atom)
  | [] => .ok []
  | e :: rest =>
    match AtomKind.ofName? e.kind with
    | none => .error (.dumpKind index path e.kind)
    | some kind =>
      (atomsOf path (index + 1) rest).map (⟨e.text, kind, e.file, Int64.ofInt e.line⟩ :: ·)

/-- Reads the dump at a path. -/
def load (d : Disk) (cancelled : Bool) (path : Path) : Except Failure (List Atom) :=
  match Source.openFile d cancelled path with
  | .error why => .error (.dumpUnopened path why)
  | .ok entry =>
    let records : Except Yaml.ReadError (List Entry) := match entry.content path with
      | .error e => .error (.unreadable ⟨0, .unreadable e.message⟩)
      | .ok content => decode content
    match records with
    | .error why => .error (.dumpUndecoded path why.message)
    | .ok entries => atomsOf path 0 entries

end ForthFrontend.Dump
