import ForthFrontend.Command.Flag
import ForthFrontend.Disk
import ForthFrontend.Text.Case
import ForthFrontend.Yaml.Document

/-!
# Settings

A setting gets its value from the first place that has one: a flag, a variable of the environment,
the configuration file, and last its default. A variable that is set for a whole section hides the
configuration file and the defaults of that section, and so does a value in the configuration file
where a section was expected: then the setting has no value at all.

## Main definitions

* `Setting`: the settings, with their defaults and flags.
* `Config`: the places where values come from.
* `Config.value?`: the value of a setting.
* `Config.load`: reads the configuration file.
* `Config.document`: the values of all settings as a document.
-/

namespace ForthFrontend

open Yaml (Data)

/-- A setting: its section, which may be empty, its name, its default, and the flag that sets it. -/
structure Setting where
  group : Bytes
  name : Bytes
  default : Data
  flag : Bytes := []
  deriving Repr, Inhabited

namespace Setting

/-- Are the bounds of the stacks checked? -/
def checkStack : Setting := ⟨"compile", "check_stack", .boolean true, "check-stack"⟩

/-- The size of the data stack. -/
def forthStackSize : Setting := ⟨"compile", "forth_stack_size", .integer 524288, "fs"⟩

/-- The path of the image. -/
def output : Setting := ⟨"compile", "output", .text [], "output"⟩

/-- The size of the return stack. -/
def returnStackSize : Setting := ⟨"compile", "return_stack_size", .integer 1024, "rs"⟩

/-- The kind of image. -/
def target : Setting := ⟨"compile", "target", .text "exe", "target"⟩

/-- Are old log files compressed? -/
def logCompress : Setting := ⟨"log", "compress", .boolean true, []⟩

/-- The path of the log file. -/
def logFilename : Setting := ⟨"log", "filename", .text ".dforth.log", "log-file"⟩

/-- The level from which on events are logged. -/
def logLevel : Setting := ⟨"log", "level", .integer 0, []⟩

/-- How many days old log files are kept. -/
def logMaxAge : Setting := ⟨"log", "max_age", .integer 28, []⟩

/-- How many old log files are kept. -/
def logMaxBackups : Setting := ⟨"log", "max_backups", .integer 3, []⟩

/-- How large the log file may become, in megabytes. -/
def logMaxSize : Setting := ⟨"log", "max_size", .integer 10, []⟩

/-- Are all events logged? -/
def logVerbose : Setting := ⟨"log", "verbose", .boolean false, "verbose"⟩

/-- How many workers read included files ahead. -/
def parallel : Setting := ⟨"parse", "parallel", .integer 1, "parallel"⟩

/-- Are string literals left open at the end of a line refused? -/
def strictStrings : Setting := ⟨"parse", "strict_strings", .boolean false, "strict-strings"⟩

/-- Are times reported? -/
def clock : Setting := ⟨"report", "clock", .boolean false, "clock"⟩

/-- Is the name of the program shown? -/
def logo : Setting := ⟨"report", "logo", .boolean true, "logo"⟩

/-- Are the symbol tables shown? -/
def map : Setting := ⟨"report", "map", .boolean false, "map"⟩

/-- Is nothing reported? -/
def quiet : Setting := ⟨"report", "quiet", .boolean false, "quiet"⟩

/-- The version of the configuration file. -/
def version : Setting := ⟨[], "version", .integer 1, []⟩

/-- The sections with their settings, and the settings outside any section, in order. -/
def all : List (Bytes × List Setting) := [
  ("compile", [checkStack, forthStackSize, output, returnStackSize, target]),
  ("log", [logCompress, logFilename, logLevel, logMaxAge, logMaxBackups, logMaxSize, logVerbose]),
  ("parse", [parallel, strictStrings]),
  ("report", [clock, logo, map, quiet]),
  ([], [version])]

/-- The name of a setting with that of its section. -/
def key (s : Setting) : Bytes :=
  if s.group.isEmpty then s.name else s.group ++ "." ++ s.name

end Setting

/-- The places where values of settings come from. -/
structure Config where
  flags : List (Bytes × FlagValue) := []
  environment : List (Bytes × Bytes) := []
  file : List (Bytes × Data) := []
  deriving Inhabited

namespace Config

/-- The variable of the environment for a key. -/
def variableName (key : Bytes) : Bytes :=
  ("DFORTH_" ++ Bytes.toUpper key).map fun b => if b == Bytes.dot || b == 0x2D then 0x5F else b

/-- The value of a variable of the environment; an empty one counts as not set. -/
def fromEnvironment? (c : Config) (key : Bytes) : Option Bytes :=
  (c.environment.lookup (variableName key)).filter fun v => !v.isEmpty

/-- The entry of a map that is not nothing. -/
def present? (es : List (Bytes × Data)) (key : Bytes) : Option Data :=
  (es.lookup key).filter fun d => !d.isNull

/-- The value of a setting in the configuration file: under its whole key, or in its section. -/
def fileValue? (c : Config) (s : Setting) : Option Data :=
  (present? c.file s.key).or
    ((present? c.file s.group).bind fun d => d.entries?.bind fun es => present? es s.name)

/-- Does a value of the configuration file stand where the section of a setting was expected? -/
def isHidden (c : Config) (s : Setting) : Bool :=
  !s.group.isEmpty && (present? c.file s.group).any fun d => d.entries?.isNone

/-- The value of a setting from the configuration file or by default. -/
def storedValue? (c : Config) (s : Setting) : Option Data :=
  match c.fileValue? s with
  | some d => some d
  | none => if c.isHidden s then none else some s.default

/-- The value of a setting, if it has one. -/
def value? (c : Config) (s : Setting) : Option Data :=
  match c.flags.lookup s.flag with
  | some v => some v.data
  | none =>
    match c.fromEnvironment? s.key with
    | some v => some (.text v)
    | none =>
      if !s.group.isEmpty && (c.fromEnvironment? s.group).isSome then none else c.storedValue? s

/-- The text of a setting, empty without a value. -/
def text (c : Config) (s : Setting) : Bytes :=
  ((c.value? s).getD .null).toText

/-- The truth value of a setting, false without a value. -/
def isOn (c : Config) (s : Setting) : Bool :=
  ((c.value? s).getD .null).toBool

/-- The number of a setting, zero without a value. -/
def number (c : Config) (s : Setting) : Int64 :=
  ((c.value? s).getD .null).toInt

/-! ## The configuration file -/

/-- The path of the configuration file. -/
def path : Path := "dforth.yaml"

/-- The values in the configuration file, or why it cannot be used. A missing file has none. -/
def load (d : Disk) : Except Bytes (List (Bytes × Data)) :=
  match d.read path with
  | .error e => if e.cause == .notFound then .ok [] else .error e.message
  | .ok content =>
    (Data.readMap content).mapError fun e => "While parsing config: " ++ e.message

/-- What is told about a configuration file that cannot be used. -/
def warning (why : Bytes) : Bytes :=
  "WARN Ignoring unreadable config file path=" ++ path ++ " error=" ++ Text.quoted why ++ "\n"

/-- Data as it is written to the configuration file. -/
def written : Data → Yaml.Document
  | .text s => .text s
  | d => .bare d.toText

/-- The fields of settings that have values. -/
def fields (c : Config) (ss : List Setting) : List (Bytes × Yaml.Document) :=
  ss.filterMap fun s => (c.value? s).map fun d => (s.name, written d)

/-- The values of all settings as a document; a section without values is left out. -/
def document (c : Config) : Bytes :=
  Yaml.Document.write 4 (Setting.all.flatMap fun (group, ss) =>
    let fs := c.fields ss
    if group.isEmpty then fs else if fs.isEmpty then [] else [(group, .record fs)])

end Config

end ForthFrontend
