import ForthFrontend.Analysis
import ForthFrontend.Include.Resolve
import ForthFrontend.Manifest

/-!
# Compilations

A compilation checks its options and then goes through three stages: parsing the sources, analysing
the atoms, and generating the image. The first stage that fails ends it; only the last stage writes
to the disk. A program that names no library is named after its source file.

The analysis and the generation of the image are exchangeable.

## Main definitions

* `Toolchain`: the exchangeable stages.
* `Compilation`: what a successful compilation produces.
* `Compilation.Run`, `Compilation.run`: a compilation with the stages it finished, its journal and
  the disk it leaves.
-/

namespace ForthFrontend

/-- The stages of a compilation that can be exchanged. -/
structure Toolchain where
  symbols : List Atom → Traced SymbolTables
  generate : Disk → SymbolTables → CompileOptions → Recorded Path

/-- Analysis by the rules of the language, and a manifest for an image. -/
def Toolchain.standard (cancelled : Bool) : Toolchain where
  symbols := analyze cancelled
  generate d t o := Manifest.generate d cancelled t o

/-- What a successful compilation produces. -/
structure Compilation where
  atoms : List Atom
  tables : SymbolTables
  output : Path
  /-- The stages whose time was taken. -/
  timed : List Stage
  deriving Repr, DecidableEq, Inhabited

/-- The tables, named after the source file if they name no library. -/
def SymbolTables.named (t : SymbolTables) (source : Path) : SymbolTables :=
  if t.library.isEmpty then { t with library := source.stem } else t

namespace Compilation

/-- How often each kind of definition occurs. -/
def summary (c : Compilation) : Summary :=
  c.tables.summary

/-- A compilation as it went: the stages it finished, its journal, the disk it leaves, and its
result or failure. -/
structure Run extends Recorded Compilation where
  stages : List Stage

/-- The journal of a stage around the journal of the work done in it. -/
def stageJournal {α : Type} (s : Stage) (work : Traced α) : Journal :=
  let last : Event := match work.result with
    | .ok _ => .stageFinished s
    | .error _ => .stageFailed s
  .stageStarted s :: work.journal ++ [last]

/-- A run that ended with a failure after some stages. -/
def failed (stages : List Stage) (journal : Journal) (d : Disk) (f : Failure) : Run :=
  { stages := stages, journal := journal, disk := d, result := .error f }

/-- The last stage. -/
def finish (tools : Toolchain) (d : Disk) (o : CompileOptions) (atoms : List Atom)
    (tables : SymbolTables) (journal : Journal) : Run :=
  let generated := tools.generate d tables o
  let journal := journal ++ stageJournal .generate generated.toTraced
  match generated.result with
  | .error f => failed [.parse, .analyze] journal generated.disk f
  | .ok output =>
    let stages := [.parse, .analyze, .generate]
    { stages := stages
      journal := journal ++ [.compilationFinished]
      disk := generated.disk
      result := .ok ⟨atoms, tables, output, stages⟩ }

/-- The stages after parsing. -/
def analyzeAndFinish (tools : Toolchain) (d : Disk) (o : CompileOptions) (atoms : List Atom)
    (journal : Journal) : Run :=
  let analyzed := tools.symbols atoms
  let journal := journal ++ stageJournal .analyze analyzed
  match analyzed.result with
  | .error f => failed [.parse] journal d f
  | .ok tables => finish tools d o atoms (tables.named o.source) journal

/-- How a compilation works on its sources. -/
def setting (d : Disk) (o : CompileOptions) (schedule : Include.Schedule) : Include.Setting :=
  { disk := d, strict := o.strictStrings, workers := o.parallel, schedule := schedule }

/-- Compiles a program. The schedule says in which order its workers finish. -/
def run (tools : Toolchain) (d : Disk) (cancelled : Bool) (o : CompileOptions)
    (schedule : Include.Schedule := .inOrder) : Run :=
  match o.validate with
  | .error why => failed [] [] d (.options why)
  | .ok _ =>
    let parsed := Include.parse (setting d o schedule) cancelled o.source
    let journal := stageJournal .parse parsed
    match parsed.result with
    | .error f => failed [] journal d f
    | .ok atoms => analyzeAndFinish tools d o atoms journal

end Compilation

end ForthFrontend
