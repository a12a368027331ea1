import ForthFrontend.Token

/-!
# Source files

A source file is read line by line. Lines end at line feeds, one carriage return at the end of a
line is dropped, and the comment state is carried from each line to the next, starting outside a
comment. A line that fills the line buffer ends the reading with an error; so does a broken rule on
an earlier line, and the earlier one wins.

## Main definitions

* `Source.lines`: the lines of a file.
* `Source.scanLines`: the atoms of the lines, numbered from one.
* `Source.compose`: the atoms of the file at a path.
-/

namespace ForthFrontend.Source

/-- A line of this many bytes or more, its line feed not counted, is refused. -/
def maxLine : Nat := 1048576

/-- The lines of a text: the pieces between line feeds, without a last empty piece. -/
def lines (content : Bytes) : List Bytes :=
  let pieces := content.splitOn Bytes.lf
  if pieces.getLast? == some [] then pieces.dropLast else pieces

/-- The line without one carriage return at its end. -/
def dropReturn (line : Bytes) : Bytes :=
  if line.getLast? == some Bytes.cr then line.dropLast else line

/-- Scans lines one after another; `number` is the number of the first of them, and `found` holds
the atoms so far, latest first. -/
def scanLines (strict : Bool) (path : Path) (number : Nat) (inComment : Bool) (found : List Atom) :
    List Bytes → Except Failure (List Atom)
  | [] => .ok found.reverse
  | text :: rest =>
    if text.length ≥ maxLine then .error (.unreadable path .lineTooLong)
    else
      let scan := Scan.line ⟨path, Int64.ofNat number, strict⟩ inComment (dropReturn text)
      match scan.result with
      | .error e => .error (.source e)
      | .ok atoms =>
        scanLines strict path (number + 1) scan.inComment (atoms.reverseAux found) rest

/-- The error that the file at `path` cannot be opened. -/
def notFound (path : Path) (why : Cause) : Failure :=
  .source { fault := .sourceNotFound, target := path, cause := some why }

/-- The atoms of the content of a file. -/
def atoms (strict : Bool) (path : Path) (content : Bytes) : Except Failure (List Atom) :=
  scanLines strict path 1 false [] (lines content)

/-- Opens a source file. A cancelled run opens nothing. -/
def openFile (d : Disk) (cancelled : Bool) (path : Path) : Except Cause Disk.Entry :=
  if cancelled then .error (.fault .cancelled)
  else (d.openFile path).mapError .disk

/-- The atoms of the file at `path`. -/
def compose (d : Disk) (strict cancelled : Bool) (path : Path) : Except Failure (List Atom) :=
  match openFile d cancelled path with
  | .error why => .error (notFound path why)
  | .ok entry =>
    match entry.content path with
    | .error e => .error (.unreadable path (.disk e))
    | .ok content => atoms strict path content

end ForthFrontend.Source
