import ForthFrontend.Command.Verb
import ForthFrontend.Config
import ForthFrontend.Operation

/-!
# The command line

The program takes its arguments, the environment and the disk, and yields an exit code, what appears
on its channels, and the disk it leaves. Mistakes in the arguments or settings are answered by the
exit code alone.

Events from a chosen level on are added to a log file, one line each.

## Main definitions

* `Host`: what the program finds when it is started.
* `Command.Outcome`: what it leaves.
* `Command.compileOptions`: the options of a compilation from the settings.
* `Command.Request`, `Command.understand`: what arguments ask for.
* `Command.perform`: carries out a request.
* `Command.run`: the program.
-/

namespace ForthFrontend

/-- What the program was built from. -/
structure Build where
  version : Bytes
  toolchain : Bytes
  deriving Repr, DecidableEq, Inhabited

/-- What the program finds when it is started. -/
structure Host extends Surroundings where
  disk : Disk
  environment : List (Bytes × Bytes) := []
  clock : Clock
  build : Build

namespace Level

/-- The names of levels and their numbers. -/
def names : List (Bytes × Level) := [
  ("debug", debug), ("info", info), ("warn", warn), ("warning", warn), ("error", error)]

/-- The number of the level that a text names, by name or number, or else `fallback`. -/
def threshold (text : Bytes) (fallback : Int64) : Int64 :=
  let word := Bytes.toLower (Bytes.trimSpace text)
  match names.lookup word with
  | some l => Int64.ofInt l.rank
  | none => (Decimal.readInt64? word).getD fallback

end Level

namespace Command

/-- What the program leaves. -/
structure Outcome where
  exitCode : Nat
  shown : Shown := {}
  disk : Disk
  deriving Repr, DecidableEq, Inhabited

/-! ## Logging -/

/-- A log file and the level from which on events are logged. -/
structure Log where
  path : Path
  threshold : Int64
  deriving Repr, DecidableEq, Inhabited

namespace Log

/-- The log that the settings ask for. -/
def ofConfig (c : Config) : Log where
  path :=
    let name := c.text .logFilename
    if Bytes.isBlank name then Setting.logFilename.default.toText else name
  threshold :=
    if c.isOn .logVerbose then Int64.ofInt Level.debug.rank
    else Level.threshold (c.text .logLevel) (Int64.ofInt Level.info.rank)

/-- The line of an event. -/
def line (e : Event) : Bytes :=
  e.level.name ++ " " ++ e.message

/-- The events of a journal that are logged. -/
def selected (l : Log) (j : Journal) : Journal :=
  j.filter fun e => l.threshold ≤ Int64.ofInt e.level.rank

/-- The disk with the events of a journal added to the log file. If nothing is logged, or the file
cannot be written, no file is made. -/
def append (l : Log) (j : Journal) (d : Disk) : Disk :=
  match l.selected j with
  | [] => d
  | events => (d.write l.path (Bytes.unlines (events.map line)) .extend).disk

end Log

/-! ## Settings of an operation -/

/-- The options of a compilation from the settings. -/
def compileOptions (c : Config) (source : Bytes) : Except OptionFault CompileOptions := do
  let target ← Target.ofText (c.text .target)
  let o : CompileOptions :=
    { source := Path.withDefaultExtension source
      output := c.text .output
      target := target.name
      checkStack := c.isOn .checkStack
      forthStackSize := c.number .forthStackSize
      returnStackSize := c.number .returnStackSize
      strictStrings := c.isOn .strictStrings
      parallel := c.number .parallel }
  o.validate
  return o

/-- What the user wants to be told, from the settings. -/
def reporting (c : Config) (a : Arguments) : Reporting where
  logo := c.isOn .logo && !a.isOn "no-logo"
  quiet := c.isOn .quiet
  clock := c.isOn .clock
  map := c.isOn .map

/-! ## Requests -/

/-- What the arguments ask for. -/
inductive Request where
  | compile (options : CompileOptions) (reporting : Reporting)
  | listAtoms (request : AtomsRequest)
  | writeConfig
  | showVersion
  | showHelp (verb : Verb)
  /-- Help about something unknown. -/
  | unknownTopic (words : List Bytes)
  /-- Nothing that makes sense. -/
  | mistake
  deriving Repr, DecidableEq, Inhabited

/-- The request to compile a source. -/
def compileRequest (c : Config) (a : Arguments) (source : Bytes) : Request :=
  match compileOptions c source with
  | .error _ => .mistake
  | .ok o =>
    .compile (if a.isOn "no-check" then { o with checkStack := false } else o) (reporting c a)

/-- The request to list the atoms of a source or of a dump, but not of both. -/
def atomsRequest (c : Config) (a : Arguments) : Request :=
  let request (o : CompileOptions) : Request :=
    .listAtoms
      { options := o, format := a.text "format" "table", out := a.text "out"
        dump := a.text "from" }
  match a.words, (a.text "from").isEmpty with
  | [source], true =>
    match compileOptions c source with
    | .error _ => .mistake
    | .ok o => request o
  | [], false => request { source := [] }
  | _, _ => .mistake

/-- The request for help about what words name. -/
def helpRequest (words : List Bytes) : Request :=
  match Verb.choose words with
  | some (v, _) => .showHelp v
  | none => .unknownTopic words

/-- The request that a command with its arguments stands for. -/
def requestOf (c : Config) (v : Verb) (a : Arguments) : Request :=
  if a.isOn "help" || !v.isRunnable then .showHelp v
  else if !v.accepts a.words.length then .mistake
  else
    match v with
    | .compile => compileRequest c a (a.words.headD [])
    | .atoms => atomsRequest c a
    | .init => .writeConfig
    | .version => .showVersion
    | .help => helpRequest a.words
    | .root | .completion => .showHelp v

/-- What the arguments ask for, and the settings for it. The flags are added to `c`. -/
def understand (c : Config) (args : List Bytes) : Request × Config :=
  match Verb.choose args with
  | none => (.mistake, c)
  | some (v, rest) =>
    match Flag.parse v.flags rest with
    | none => (.mistake, c)
    | some a =>
      let c := { c with flags := a.flags }
      (requestOf c v a, c)

/-! ## Carrying out requests -/

/-- An outcome without a change of the disk. -/
def answered (h : Host) (exitCode : Nat) (shown : Shown) : Outcome :=
  { exitCode := exitCode, shown := h.reached shown, disk := h.disk }

/-- The outcome of an operation. -/
def finish (h : Host) (c : Config) (op : Operation) : Outcome where
  exitCode := if op.result.isOk then 0 else 1
  shown := h.reached (Notice.presentAll h.look op.notices)
  disk := (Log.ofConfig c).append op.journal op.disk

/-- Writes a configuration file with the values of all settings, unless there is one. -/
def writeConfig (h : Host) (c : Config) : Outcome :=
  if h.disk.hasPath Config.path then answered h 1 {}
  else
    let change := h.disk.write Config.path c.document
    match change.error? with
    | some _ => { exitCode := 1, disk := change.disk }
    | none =>
      { exitCode := 0, shown := { err := "Wrote " ++ Config.path ++ "\n" }, disk := change.disk }

/-- What the program was built from. -/
def versionText (b : Build) : Bytes :=
  "dforth version\t " ++ b.version ++ "\ngo version\t " ++ b.toolchain ++ "\n"

/-- Can the text stand between backquotes? -/
def fitsBackquotes (s : Bytes) : Bool :=
  (Utf8.units s).all fun u =>
    !u.isStray && u.value != 0x60 && u.value != 0x7F && u.value != 0xFEFF
      && (0x20 ≤ u.value || u.value == 0x09)

/-- A text between backquotes if possible, else between quotation marks. -/
def backquoted (s : Bytes) : Bytes :=
  if fitsBackquotes s then "`" ++ s ++ "`" else Text.quoted s

/-- What is told about an unknown topic of help. -/
def unknownTopicText (words : List Bytes) : Bytes :=
  "Unknown help topic [" ++ Bytes.joinWith [Bytes.space] (words.map backquoted) ++ "]\n"
    ++ Verb.root.usage false

/-- Carries out a request. -/
def perform (h : Host) (c : Config) : Request → Outcome
  | .compile o r =>
    finish h c
      (Operation.compile (Toolchain.standard false) h.clock h.disk false o r h.toSurroundings)
  | .listAtoms q => finish h c (Operation.listAtoms h.disk false q h.toSurroundings)
  | .writeConfig => writeConfig h c
  | .showVersion => answered h 0 { err := versionText h.build }
  | .showHelp v => answered h 0 { out := v.helpText }
  | .unknownTopic words => answered h 0 { err := unknownTopicText words }
  | .mistake => answered h 1 {}

/-- What the arguments ask for, the settings for it, and what is told about the configuration
file. -/
def prepare (h : Host) (args : List Bytes) : (Request × Config) × Bytes :=
  match Config.load h.disk with
  | .ok file => (understand { environment := h.environment, file := file } args, [])
  | .error why => (understand { environment := h.environment } args, Config.warning why)

/-- The program. -/
def run (h : Host) (args : List Bytes) : Outcome :=
  let ((request, c), warning) := prepare h args
  let o := perform h c request
  { o with shown := { o.shown with err := warning ++ o.shown.err } }

end Command

end ForthFrontend
