import ForthFrontend.Failure
import ForthFrontend.Pager
import ForthFrontend.Report.Duration
import ForthFrontend.Report.Listing

/-!
# Notices

What a run tells the user is a list of notices. A notice says what happened; how it looks depends on
where it is shown: plain text for files and pipes, styled text for terminals. Only the notice of an
error goes to the error channel. A listing that is opened in the pager is drawn there and leaves no
text on the channels.

## Main definitions

* `Notice`: something a run tells the user.
* `Look`: plain or styled text.
* `Shown`: what appears on the two channels.
* `Notice.present`, `Notice.presentAll`: the text of notices.
-/

namespace ForthFrontend

/-- Something a run tells the user. -/
inductive Notice where
  /-- The name of the program. -/
  | logo
  /-- What is compiled, and the image it is compiled to. -/
  | compiling (source output : Path)
  /-- A stage is finished, with its time if times are reported. -/
  | stage (name : Bytes) (time : Option Duration)
  /-- How many definitions there are, with the total time if times are reported. -/
  | summary (counts : Summary) (total : Option Duration)
  /-- The symbol tables. -/
  | map (tables : SymbolTables)
  | atoms (as : List Atom)
  /-- A listing that is opened in the pager. -/
  | paged (pager : Pager)
  /-- A document as it is. -/
  | document (text : Bytes)
  | error (message : Bytes)
  | done (ok : Bool)
  deriving Repr, DecidableEq, Inhabited

/-- How notices look. -/
inductive Look where
  | plain
  | styled (palette : Palette)
  deriving Repr, DecidableEq, Inhabited

/-- What appears on the output channel and on the error channel. -/
structure Shown where
  out : Bytes := []
  err : Bytes := []
  deriving Repr, DecidableEq, Inhabited

namespace Notice

/-- The name of the program. -/
def logoLine : Bytes := "Delta Forth Compiler for Go, dforth"

/-- What the program does. -/
def purposeLine : Bytes := "Compiles Forth sources into platform images."

/-- The names of stages that have one of their own. -/
def stageLabels : List (Bytes × Bytes) := [
  ("parse", "Parsing file..."), ("analyze", "Analyzing source atoms..."),
  ("generate", "Generating code...")]

/-- How a stage is called in reports. -/
def stageLabel (name : Bytes) : Bytes :=
  (stageLabels.lookup name).getD (name ++ "...")

/-- The text filled with spaces up to a number of characters. -/
def padCharacters (n : Nat) (text : Bytes) : Bytes :=
  text ++ Bytes.blanks (n - (Utf8.units text).length)

/-- The name of a stage in its column. -/
def stageColumn (name : Bytes) : Bytes :=
  padCharacters 26 (stageLabel name)

/-- How the outcome of a run is told. -/
def outcome (ok : Bool) : Bytes :=
  if ok then "Operation completed successfully." else "Operation failed."

/-- What introduces an error. -/
def errorLabel : Bytes := "Compiling error:"

/-! ## Plain text -/

/-- A part of the map in plain text. -/
def plainSection (s : Listing.Section) : Bytes :=
  "* " ++ s.title ++ ":\n" ++ s.table.render ++ "\n"

/-- The map in plain text. -/
def plainMap (t : SymbolTables) : Bytes :=
  "--- Map Information (library " ++ t.library ++ ") ---\n\n"
    ++ (Listing.mapSections t).flatMap plainSection

/-- The time of a stage in plain text. -/
def plainTime (time : Option Duration) : Bytes :=
  match time with
  | none => []
  | some d => " in " ++ d.elapsed

/-- The total time in plain text. -/
def plainTotal (total : Option Duration) : Bytes :=
  match total with
  | none => []
  | some d => "Total compiling time: " ++ d.elapsed ++ "\n"

/-- A notice in plain text. -/
def plain : Notice → Shown
  | logo => { out := logoLine ++ "\n" ++ purposeLine ++ "\n\n" }
  | compiling source output =>
    { out := "Compiling file '" ++ source ++ "' to '" ++ output ++ "'\n" }
  | stage name time => { out := stageColumn name ++ " Done" ++ plainTime time ++ "\n" }
  | summary counts total =>
    { out := plainTotal total ++ "\n" ++ Listing.summary counts ++ "\n" }
  | map tables => { out := plainMap tables }
  | atoms as => { out := Listing.atoms as }
  | paged _ => {}
  | document text => { out := text }
  | error message => { err := "\n" ++ errorLabel ++ " " ++ message ++ "\n" }
  | done ok => { out := outcome ok ++ "\n" }

/-! ## Styled text -/

/-- A part of the map in styled text. -/
def styledSection (p : Palette) (s : Listing.Section) : Bytes :=
  Style.heading.apply p s.title ++ "\n" ++ s.table.render ++ "\n"

/-- The map in styled text. -/
def styledMap (p : Palette) (t : SymbolTables) : Bytes :=
  Style.heading.apply p ("Map information: " ++ t.library) ++ "\n\n"
    ++ (Listing.mapSections t).flatMap (styledSection p)

/-- The time of a stage in styled text. -/
def styledTime (p : Palette) (time : Option Duration) : Bytes :=
  match time with
  | none => []
  | some d => Style.faint.apply p d.elapsed

/-- The total time in styled text. -/
def styledTotal (p : Palette) (total : Option Duration) : Bytes :=
  match total with
  | none => []
  | some d => "  " ++ Style.faint.apply p "total" ++ " " ++ d.elapsed ++ "\n"

/-- A notice in styled text. -/
def styled (p : Palette) : Notice → Shown
  | logo =>
    { out := Style.banner.box p [logoLine, Style.faint.apply p purposeLine] ++ "\n\n" }
  | compiling source output =>
    { out := "Compiling " ++ Style.heading.apply p source ++ " → "
        ++ Style.heading.apply p output ++ "\n" }
  | stage name time =>
    { out := "  " ++ Style.good.apply p "✔" ++ " " ++ stageColumn name ++ styledTime p time
        ++ "\n" }
  | summary counts total =>
    { out := styledTotal p total ++ "\n" ++ Listing.summary counts ++ "\n" }
  | map tables => { out := styledMap p tables }
  | atoms as => { out := Listing.atoms as }
  | paged _ => {}
  | document text => { out := text }
  | error message =>
    { err := "\n" ++ Style.bad.apply p errorLabel ++ " " ++ message ++ "\n" }
  | done ok =>
    { out := (if ok then Style.good else Style.bad).apply p (outcome ok) ++ "\n" }

/-- The text of a notice. -/
def present (l : Look) (n : Notice) : Shown :=
  match l with
  | .plain => n.plain
  | .styled p => n.styled p

/-- The text of notices, one after the other. -/
def presentAll (l : Look) (ns : List Notice) : Shown where
  out := ns.flatMap fun n => (n.present l).out
  err := ns.flatMap fun n => (n.present l).err

end Notice

end ForthFrontend
