import ForthFrontend.Options
import ForthFrontend.Output
import ForthFrontend.Yaml.Document

/-!
# Image manifests

The image of a program is described by a manifest: a document with the kind of image, the stacks and
every symbol table with its addresses. Tables without entries are left out. An external word that is
not bound to a method of a library is refused before anything is written.

## Main definitions

* `Manifest.fields`, `Manifest.text`: the manifest of a program.
* `Manifest.firstUnbound?`: the external word that is refused.
* `Manifest.generate`: writes the manifest to the path of the image.
-/

namespace ForthFrontend.Manifest

open Yaml (Document)

/-- The width of a level of indentation. -/
def step : Nat := 2

/-- The entry of a constant. -/
def constant (c : Constant) : Document :=
  .record [("name", .text c.name),
    match c.value with
    | .text s => ("text", .text s)
    | .number n => ("number", .integer n)]

/-- The entry of a global variable. -/
def global (g : GlobalVariable) : Document :=
  .record [("name", .text g.name), ("address", .integer g.address), ("size", .integer g.size)]

/-- The entry of a local variable. -/
def localVariable (l : LocalVariable) : Document :=
  .record [("name", .text l.name), ("word", .text l.word), ("address", .integer l.address)]

/-- The entry of a word. -/
def word (w : Word) : Document :=
  .record [("name", .text w.name), ("body", .flow (Atom.texts w.body))]

/-- The entry of an external word. -/
def external (e : ExternalWord) : Document :=
  .record [("name", .text e.name), ("library", .text e.library), ("class", .text e.className),
    ("method", .text e.method)]

/-- The entry of the stacks. -/
def stack (o : CompileOptions) : Document :=
  .record [("check", .boolean o.checkStack), ("forth_cells", .integer o.forthStackSize),
    ("return_cells", .integer o.returnStackSize)]

/-- The field of a table, left out if the table is empty. -/
def table (name : Bytes) (entries : List Document) : List (Bytes × Document) :=
  if entries.isEmpty then [] else [(name, .list entries)]

/-- The fields that every manifest has. -/
def heading (t : SymbolTables) (o : CompileOptions) : List (Bytes × Document) :=
  [("library", .text t.library), ("target", .text o.target), ("stack", stack o)]

/-- The fields of a manifest. -/
def fields (t : SymbolTables) (o : CompileOptions) : List (Bytes × Document) :=
  heading t o
    ++ table "constants" (t.constants.map constant)
    ++ table "globals" (t.globals.map global)
    ++ table "locals" (t.locals.map localVariable)
    ++ table "words" (t.words.map word)
    ++ table "externals" (t.externals.map external)

/-- The manifest as it is written. -/
def text (t : SymbolTables) (o : CompileOptions) : Bytes :=
  Document.write step (fields t o)

/-- The first external word that is not bound. -/
def firstUnbound? (t : SymbolTables) : Option ExternalWord :=
  t.externals.find? (!·.isBound)

/-- How the writing of an image is recorded. -/
def report : Output.Report where
  done := .imageWritten
  undone := .imageUnwritten
  failure := .imageUnwritten

/-- Writes the manifest of a program to the path of its image. -/
def generate (d : Disk) (cancelled : Bool) (t : SymbolTables) (o : CompileOptions) :
    Recorded Path :=
  match firstUnbound? t with
  | some e => { journal := [], result := .error (.unbound e), disk := d }
  | none => Output.save report d cancelled o.outputPath (text t o)

end ForthFrontend.Manifest
