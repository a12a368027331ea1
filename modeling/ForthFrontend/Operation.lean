import ForthFrontend.Compilation
import ForthFrontend.Dump
import ForthFrontend.Report.Screen

/-!
# Operations

The two things a user can ask for: compiling a program, and listing its atoms. An operation yields a
result or failure, the disk it leaves, its journal, and the notices for the user. A cancelled
operation tells the user nothing. An operation whose listing or document cannot be shown fails.

## Main definitions

* `Operation`: an operation as it went.
* `Reporting`: what the user wants to be told.
* `Surroundings`: what an operation meets and has no say in.
* `Operation.compile`: compiles a program.
* `Operation.listAtoms`: lists, prints or saves the atoms of a program or of a dump.
-/

namespace ForthFrontend

/-- An operation as it went. -/
structure Operation extends Recorded Unit where
  notices : List Notice

/-- What the user wants to be told about a compilation. -/
structure Reporting where
  logo : Bool := false
  quiet : Bool := false
  /-- Are times reported? -/
  clock : Bool := false
  /-- Are the symbol tables shown? -/
  map : Bool := false
  deriving Repr, DecidableEq, Inhabited

/-- How long each stage takes. -/
abbrev Clock := Stage → Duration

/-- What an operation meets and has no say in: what its notices are shown on, and in which order its
workers finish. -/
structure Surroundings extends Screen where
  schedule : Include.Schedule := .inOrder

/-- What to do with the atoms of a program. -/
structure AtomsRequest where
  options : CompileOptions
  /-- How the atoms are printed: `yaml`, or `table`, which an empty format means too. -/
  format : Bytes := []
  /-- If not empty, the atoms are saved here and not printed. -/
  out : Path := []
  /-- If not empty, the atoms come from this dump and not from the sources. -/
  dump : Path := []
  deriving Repr, DecidableEq, Inhabited

namespace Operation

/-- Why a notice cannot be shown, if it cannot: listings fail when the operation is cancelled, other
notices are just not shown then. -/
def fault? (cancelled : Bool) (s : Screen) (n : Notice) : Option Fault :=
  if cancelled && n.title?.isSome then some .cancelled else s.fault? n

/-- What showing a notice yields. -/
def shown (cancelled : Bool) (n : Notice) (s : Screen := {}) : Except Failure Unit :=
  match fault? cancelled s n with
  | none => .ok ()
  | some why => .error (.bare (.fault why))

/-- The notices that reach the user. -/
def told (cancelled : Bool) (notices : List Notice) : List Notice :=
  if cancelled then [] else notices

/-- Notices that are given only on a condition. -/
def given (wanted : Bool) (notices : List Notice) : List Notice :=
  if wanted then notices else []

/-- What is told before a compilation. -/
def opening (o : CompileOptions) (r : Reporting) : List Notice :=
  given r.logo [.logo] ++ given (!r.quiet) [.compiling o.source o.outputPath]

/-- What is told about finished stages. -/
def progress (clock : Clock) (r : Reporting) (stages : List Stage) : List Notice :=
  given (!r.quiet) (stages.map fun s => .stage s.name (if r.clock then some (clock s) else none))

/-- What is told about a failed compilation. -/
def failing (r : Reporting) (f : Failure) : List Notice :=
  .error f.message :: given (!r.quiet) [.done false]

/-- The total time of a compilation. -/
def total (clock : Clock) (c : Compilation) : Duration :=
  .sum (c.timed.map clock)

/-- What is told about a successful compilation, before the symbol tables. -/
def summing (clock : Clock) (r : Reporting) (c : Compilation) : List Notice :=
  given (!r.quiet) [.summary c.summary (if r.clock then some (total clock c) else none)]

/-- The symbol tables as they are shown, if they are wanted. -/
def mapping (s : Screen) (r : Reporting) (c : Compilation) : List Notice :=
  given (!r.quiet) (given r.map [s.appearance (.map c.tables)])

/-- Why the symbol tables cannot be shown, if they are wanted and cannot. -/
def mapFault? (cancelled : Bool) (s : Screen) (r : Reporting) (c : Compilation) : Option Fault :=
  if r.map && !r.quiet then fault? cancelled s (.map c.tables) else none

/-- What is told at the end of a successful compilation. -/
def closing (r : Reporting) : List Notice :=
  given (!r.quiet) [.done true]

/-- Compiles a program and tells the user about it. The user is not told that the symbol tables
cannot be shown. -/
def compile (tools : Toolchain) (clock : Clock) (d : Disk) (cancelled : Bool) (o : CompileOptions)
    (r : Reporting) (s : Surroundings := {}) : Operation :=
  let run := Compilation.run tools d cancelled o s.schedule
  let before := opening o r ++ progress clock r run.stages
  match run.result with
  | .error f =>
    { journal := run.journal ++ [.compilationFailed]
      result := .error f
      disk := run.disk
      notices := told cancelled (before ++ failing r f) }
  | .ok c =>
    let listed := before ++ summing clock r c ++ mapping s.toScreen r c
    match mapFault? cancelled s.toScreen r c with
    | some why =>
      { journal := run.journal
        result := .error (.mapUndisplayed why)
        disk := run.disk
        notices := told cancelled listed }
    | none =>
      { journal := run.journal
        result := .ok ()
        disk := run.disk
        notices := told cancelled (listed ++ closing r) }

/-- The atoms to be listed: those of a dump, if one is named, else those of the sources. -/
def findAtoms (d : Disk) (cancelled : Bool) (q : AtomsRequest)
    (schedule : Include.Schedule := .inOrder) : Traced (List Atom) :=
  if q.dump.isEmpty then
    let parsed :=
      Include.parse (Compilation.setting d q.options schedule) cancelled q.options.source
    match parsed.result with
    | .ok _ => parsed
    | .error _ => { parsed with journal := parsed.journal ++ [.parsingFailed] }
  else
    match Dump.load d cancelled q.dump with
    | .ok atoms => ⟨[], .ok atoms⟩
    | .error f => ⟨[.dumpUnloaded q.dump], .error f⟩

/-- An operation that changes nothing on the disk. -/
def settled (d : Disk) (journal : Journal) (result : Except Failure Unit)
    (notices : List Notice) : Operation :=
  { journal := journal, result := result, disk := d, notices := notices }

/-- Writes a dump to the output channel. -/
def printDump (d : Disk) (journal : Journal) (s : Screen) (dump : Bytes) : Operation :=
  let result :=
    match s.refusal? dump with
    | none => .ok ()
    | some l => .error (.dumpUnprinted l.why)
  settled d journal result [.document dump]

/-- Prints atoms in a format. -/
def printAtoms (d : Disk) (cancelled : Bool) (journal : Journal) (s : Screen) (format : Bytes)
    (atoms : List Atom) : Operation :=
  if format == Bytes.ofString "yaml" then printDump d journal s (Dump.text atoms)
  else if format.isEmpty || format == Bytes.ofString "table" then
    settled d journal (shown cancelled (.atoms atoms) s)
      (told cancelled [s.appearance (.atoms atoms)])
  else settled d journal (.error (.unknownFormat format)) []

/-- Lists, prints or saves atoms. Only a failure to find the atoms is told to the user. -/
def listAtoms (d : Disk) (cancelled : Bool) (q : AtomsRequest) (s : Surroundings := {}) :
    Operation :=
  let found := findAtoms d cancelled q s.schedule
  match found.result with
  | .error f => settled d found.journal (.error f) (told cancelled [.error f.message])
  | .ok atoms =>
    if q.out.isEmpty then printAtoms d cancelled found.journal s.toScreen q.format atoms
    else
      let saved := Dump.save d cancelled q.out atoms
      { journal := found.journal ++ saved.journal
        result := saved.result.map fun _ => ()
        disk := saved.disk
        notices := [] }

end Operation

end ForthFrontend
