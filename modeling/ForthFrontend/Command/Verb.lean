import ForthFrontend.Command.Flag

/-!
# The commands of the program

Every command has a name, a short and a long description, and flags of its own. The flags of the
program itself can be given with every command.

## Main definitions

* `Verb`: the commands.
* `Verb.flags`: the flags that can be given with a command.
* `Verb.help`, `Verb.usage`: the texts that describe a command.
* `Verb.choose`: the command among arguments.
-/

namespace ForthFrontend

/-- The commands; `root` is the program itself. -/
inductive Verb where
  | root
  | atoms
  | compile
  | completion
  | help
  | init
  | version
  deriving Repr, DecidableEq, Inhabited

namespace Verb

/-- The name of the program. -/
def program : Bytes := "dforth"

/-- The commands besides the program itself. -/
def subcommands : List Verb := [atoms, compile, completion, help, init, version]

/-- The name of a command. -/
def name : Verb → Bytes
  | root => program
  | atoms => "atoms"
  | compile => "compile"
  | completion => "completion"
  | help => "help"
  | init => "init"
  | version => "version"

/-- The words that follow the name of a command. -/
def operands : Verb → Bytes
  | compile => " <source>"
  | atoms => " [source]"
  | help => " [command]"
  | _ => []

/-- What a command does, in a line. -/
def short : Verb → Bytes
  | root => "Forth compiler front end"
  | atoms => "Print the atom stream after every LOAD is resolved"
  | compile => "Compile a Forth source file"
  | completion => "Generate the autocompletion script for the specified shell"
  | help => "Help about any command"
  | init => "Generate a default dforth.yaml configuration file"
  | version => "Show the version information"

/-- The description of the program. -/
def rootLong : Bytes :=
  "dforth compiles programs written in a Forth dialect into platform images.\n\n" ++
  "Sources are split into atoms (words, .\"display\" strings and \"dump\" strings),\n" ++
  "( block ) and \\ line comments are dropped, and every LOAD <file> directive is\n" ++
  "replaced by the atoms of the named file before symbols are resolved.\n" ++
  "A source given without an extension gets .4th appended."

/-- The description of the listing of atoms. -/
def atomsLong : Bytes :=
  "Scan a Forth source, splice in every file it LOADs and print the\n" ++
  "resulting atoms with the file and line each one came from.\n\n" ++
  "Use --format yaml for a machine readable dump or --out to save it to a file.\n" ++
  "A dump saved earlier can be shown again with --from instead of a source."

/-- The description of compilation. -/
def compileLong : Bytes :=
  "Compile a Forth source file and every file it LOADs into an image.\n\n" ++
  "The image is written to <source>.exe (or .dll with --target dll) in the\n" ++
  "current directory unless --output names another file."

/-- The description of completion. -/
def completionLong : Bytes :=
  "Generate the autocompletion script for dforth for the specified shell.\n" ++
  "See each sub-command's help for details on how to use the generated script."

/-- The description of help. -/
def helpLong : Bytes :=
  "Help provides help for any command in the application.\n" ++
  "Simply type dforth help [path to command] for full details."

/-- The description of the making of a configuration file. -/
def initLong : Bytes :=
  "Create a dforth.yaml in the current working directory holding the\n" ++
  "compiler and report defaults (target kind, stack sizes, logging) so they can\n" ++
  "be edited instead of repeated on every command line."

/-- The description of the version information. -/
def versionLong : Bytes :=
  "Displays the compiler build version and the Go version used to build it."

/-- What a command does. -/
def long : Verb → Bytes
  | root => rootLong
  | atoms => atomsLong
  | compile => compileLong
  | completion => completionLong
  | help => helpLong
  | init => initLong
  | version => versionLong

/-- The flags of the program, which can be given with every command. -/
def commonFlags : List Flag := [
  { name := "log-file", default := .text ".dforth.log", purpose := "log file path" },
  { name := "logo", default := .switch true, purpose := "print the banner" },
  { name := "no-logo", default := .switch false, purpose := "don't print the banner" },
  { name := "parallel", letter := 'p', default := .number 1,
    purpose := "number of workers reading included files ahead" },
  { name := "quiet", letter := 'q', default := .switch false,
    purpose := "don't report compiling progress" },
  { name := "strict-strings", default := .switch false,
    purpose := "reject string literals left open at end of line" },
  { name := "verbose", letter := 'v', default := .switch false, purpose := "log at debug level" }]

/-- The flags of compilation. -/
def compileFlags : List Flag := [
  { name := "check-stack", default := .switch true, purpose := "check stack bounds at run time" },
  { name := "clock", default := .switch false,
    purpose := "measure and report compilation times" },
  { name := "fs", default := .number 524288, purpose := "forth stack size in cells" },
  { name := "map", default := .switch false, purpose := "print detailed map information" },
  { name := "no-check", default := .switch false, purpose := "disable stack bounds checking" },
  { name := "output", letter := 'o', default := .text [],
    purpose := "image file to write (directory part included)" },
  { name := "rs", default := .number 1024, purpose := "return stack size in cells" },
  { name := "target", letter := 't', default := .text "exe", purpose := "image kind: exe or dll" }]

/-- The flags of the listing of atoms. -/
def atomsFlags : List Flag := [
  { name := "format", letter := 'f', default := .text "table",
    purpose := "output format: table or yaml" },
  { name := "from", default := .text [], purpose := "read atoms from a dump saved with --out" },
  { name := "out", default := .text [], purpose := "write the yaml dump to this file" }]

/-- The flag that asks for help. -/
def helpFlag (v : Verb) : Flag :=
  { name := "help", letter := 'h', default := .switch false, purpose := "help for " ++ v.name }

/-- The flags of a command alone, without the one for help. -/
def ownFlags : Verb → List Flag
  | root => commonFlags
  | compile => compileFlags
  | atoms => atomsFlags
  | _ => []

/-- Flags in the order of their names. -/
def sorted (fs : List Flag) : List Flag :=
  fs.mergeSort fun a b => Bytes.le a.name b.name

/-- The flags that can be given with a command. -/
def flags (v : Verb) : List Flag :=
  v.helpFlag :: v.ownFlags ++ (if v == root then [] else commonFlags)

/-! ## Texts -/

/-- The commands that are listed for a command, with their descriptions. -/
def listed : Verb → List (Bytes × Bytes)
  | root => subcommands.map fun v => (v.name, v.short)
  | completion => [
    ("bash", "Generate the autocompletion script for bash"),
    ("fish", "Generate the autocompletion script for fish"),
    ("powershell", "Generate the autocompletion script for powershell"),
    ("zsh", "Generate the autocompletion script for zsh")]
  | _ => []

/-- A command with the name of the program. -/
def fullName (v : Verb) : Bytes :=
  if v == root then program else program ++ " " ++ v.name

/-- Does the command do anything itself? -/
def isRunnable (v : Verb) : Bool :=
  v != completion

/-- A line for a listed command. -/
def listedLine (entry : Bytes × Bytes) : Bytes :=
  "  " ++ entry.1 ++ Bytes.blanks (11 - entry.1.length) ++ " " ++ entry.2 ++ "\n"

/-- How a command is called. -/
def usageLines (v : Verb) : Bytes :=
  let alone : Bytes :=
    if v.isRunnable then "  " ++ v.fullName ++ v.operands ++ " [flags]\n" else []
  let withCommand : Bytes :=
    if v.listed.isEmpty then [] else "  " ++ v.fullName ++ " [command]\n"
  "Usage:\n" ++ alone ++ withCommand

/-- A part of a usage text, left out if it is empty. -/
def part (title body : Bytes) : Bytes :=
  if body.isEmpty then [] else "\n" ++ title ++ ":\n" ++ body

/-- Where more can be learned about listed commands. -/
def pointer (v : Verb) : Bytes :=
  if v.listed.isEmpty then []
  else
    "\nUse \"" ++ v.fullName ++ " [command] --help\" for more information about a command.\n"

/-- The usage of a command. The flag for help is shown on request. -/
def usage (v : Verb) (withHelp : Bool) : Bytes :=
  let own := v.ownFlags ++ (if withHelp then [v.helpFlag] else [])
  let common := if v == root then [] else commonFlags
  v.usageLines ++ part "Available Commands" (v.listed.flatMap listedLine)
    ++ part "Flags" (Flag.usage (sorted own)) ++ part "Global Flags" (Flag.usage common)
    ++ v.pointer

/-- The whole description of a command. -/
def helpText (v : Verb) : Bytes :=
  v.long ++ "\n\n" ++ v.usage true

/-! ## Choosing a command -/

/-- The command that arguments name, with the arguments for it, or nothing if they name an unknown
one. -/
def choose (args : List Bytes) : Option (Verb × List Bytes) :=
  match Flag.words commonFlags args with
  | [] => some (root, args)
  | word :: _ =>
    (subcommands.find? (·.name == word)).map fun v => (v, Flag.dropWord commonFlags word args)

/-- Does a command accept this number of words? -/
def accepts : Verb → Nat → Bool
  | compile, n => n == 1
  | atoms, n => n ≤ 1
  | _, _ => true

end Verb

end ForthFrontend
