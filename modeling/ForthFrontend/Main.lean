import ForthFrontend.Command

/-!
# The executable

Reads the files below the working directory, and next to arguments that lead elsewhere, runs the
program on them, and brings about what it yields: the text on the two channels, the new files, and
the exit code. Nothing is decided here.
-/

namespace ForthFrontend.Executable

/-- How many levels of directories are read. -/
def depth : Nat := 16

/-- The text of bytes that are valid UTF-8. -/
def text? (b : Bytes) : Option String :=
  String.fromUTF8? ⟨b.toArray⟩

/-- Adds a file or a directory with everything below it to a disk. Hidden directories are left
out. -/
def readEntry : Nat → Disk → Disk.Location → IO.FS.DirEntry → IO Disk
  | 0, d, _, _ => return d
  | fuel + 1, d, above, e => do
    let l := Bytes.ofString e.fileName :: above
    match ← e.path.readDir.toBaseIO with
    | .ok entries =>
      if e.fileName.startsWith "." then return d
      else entries.toList.foldlM (fun d e => readEntry fuel d l e) (d.put l .directory)
    | .error _ =>
      match ← (IO.FS.readBinFile e.path).toBaseIO with
      | .ok content => return d.put l (.file content.toList)
      | .error _ => return d

/-- A location and all locations above it. -/
def upwards : Disk.Location → List Disk.Location
  | [] => []
  | name :: above => (name :: above) :: upwards above

/-- The disk with a location and everything above it made directories. -/
def withWay (d : Disk) (l : Disk.Location) : Disk :=
  (upwards l).foldl (fun d l => if (d.lookup? l).isSome then d else d.put l .directory) d

/-- Adds everything below a directory to a disk. -/
def addTree (d : Disk) (path : Path) : IO Disk := do
  let l := d.destination path
  match ← ((← IO.currentDir) / (text? l.path).getD "").readDir.toBaseIO with
  | .ok entries => entries.toList.foldlM (fun d e => readEntry depth d l e) (withWay d l)
  | .error _ => return d

/-- The disk as far as the arguments can be about it. -/
def readDisk (args : List Bytes) : IO Disk := do
  let nowhere : Disk := { workDir := [], entries := [] }
  let here := nowhere.destination (Bytes.ofString (← IO.currentDir).toString)
  let d ← addTree { nowhere with workDir := here } Path.here
  let elsewhere := args.filter fun a => Path.isAbsolute a || Bytes.startsWith a Path.parent
  elsewhere.foldlM (fun d a => addTree d (Path.dir a)) d

/-- The variables of the environment that the program knows. -/
def readEnvironment : IO (List (Bytes × Bytes)) := do
  let keys := Setting.all.flatMap fun (group, ss) => group :: ss.map Setting.key
  let names := (keys.filter fun k => !k.isEmpty).map Config.variableName
  names.filterMapM fun name => do
    let value ← IO.getEnv ((text? name).getD "")
    return value.map fun v => (name, Bytes.ofString v)

/-- A value and how long it took to compute it. -/
def timed {α : Type} (work : Unit → α) : IO (α × Duration) := do
  let started ← IO.monoNanosNow
  let value ← IO.lazyPure work
  let ended ← IO.monoNanosNow
  return (value, ⟨Int64.ofNat (ended - started)⟩)

/-- How long the stages of a compilation take. -/
def measure (d : Disk) (o : CompileOptions) : IO Clock := do
  let tools := Toolchain.standard false
  let setting : Include.Setting := { disk := d, strict := o.strictStrings, workers := o.parallel }
  let (parsed, parsing) ← timed fun _ => Include.parse setting false o.source
  let (analyzed, analyzing) ← timed fun _ => tools.symbols (parsed.result.toOption.getD [])
  let (_, generating) ← timed fun _ => tools.generate d (analyzed.result.toOption.getD {}) o
  return fun
    | .parse => parsing
    | .analyze => analyzing
    | .generate => generating

/-- Brings about the changes of a disk. -/
def writeDisk (before after : Disk) : IO Unit :=
  after.entries.reverse.forM fun (l, e) => do
    if before.lookup? l != some e then
      match text? l.path, e with
      | some s, .directory => IO.FS.createDirAll s
      | some s, .file content => IO.FS.writeBinFile s ⟨content.toArray⟩
      | none, _ => return ()

/-- Writes bytes to a channel. -/
def emit (channel : IO.FS.Stream) (b : Bytes) : IO Unit := do
  channel.write ⟨b.toArray⟩
  channel.flush

/-- Runs the program on the files and variables that are there. -/
def start (args : List Bytes) : IO Nat := do
  let out ← IO.getStdout
  let d ← readDisk args
  let host : Host :=
    { disk := d
      environment := ← readEnvironment
      clock := fun _ => {}
      look := if ← out.isTty then .styled .sixteen else .plain
      build := ⟨"(devel)", "unknown"⟩ }
  let host ← match (Command.prepare host args).1.1 with
    | .compile o r =>
      if r.clock then
        let clock ← measure d o
        pure { host with clock := clock }
      else pure host
    | _ => pure host
  let outcome := Command.run host args
  emit out outcome.shown.out
  emit (← IO.getStderr) outcome.shown.err
  writeDisk d outcome.disk
  return outcome.exitCode

end ForthFrontend.Executable

/-- The program. -/
def main (args : List String) : IO UInt32 := do
  return (← ForthFrontend.Executable.start (args.map ForthFrontend.Bytes.ofString)).toUInt32
