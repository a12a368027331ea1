import ForthFrontend.Path

/-!
# Disks

A disk is a finite tree of directories and regular files without links, together with the directory
relative paths start from. It is kept as a list of located entries, so a change is a new value and
two disks can be compared.

A path is looked up element by element. Every element, also an empty one, needs a directory to
stand in; `..` leads to the parent and stops at the root. The *identity* of a path is the absolute
path obtained by the same walk without looking at the disk; on a tree without links a path that
leads to an entry leads to the entry its identity names.

Writing a file opens it first, which empties it, and then hands the content over. On a disk with a
*flaw* the second part breaks off: some bytes reach the file, and the rest is lost.

## Main definitions

* `Disk`, `Disk.Entry`, `Disk.Location`: trees of files.
* `Disk.Flaw`: how writing to an opened file breaks off.
* `Disk.locate`: the walk along a path.
* `Disk.identity`: the absolute, cleaned form of a path.
* `Disk.read`, `Disk.write`: contents of files, with parent directories made when writing.
* `Disk.includePath`: which file a relative name inside another file means.
-/

namespace ForthFrontend

/-- Why the operating system refuses an operation on a path. -/
inductive DiskCause where
  | notFound
  | isDirectory
  | notDirectory
  | nameTooLong
  | invalidArgument
  | noSpace
  | quotaExceeded
  | fileTooLarge
  | badMedium
  deriving Repr, DecidableEq, Inhabited

namespace DiskCause

/-- The wording of a cause. -/
def message : DiskCause → Bytes
  | notFound => "no such file or directory"
  | isDirectory => "is a directory"
  | notDirectory => "not a directory"
  | nameTooLong => "file name too long"
  | invalidArgument => "invalid argument"
  | noSpace => "no space left on device"
  | quotaExceeded => "disk quota exceeded"
  | fileTooLarge => "file too large"
  | badMedium => "input/output error"

end DiskCause

/-- The operations that can fail on a path. -/
inductive DiskAction where
  | openFile
  | readFile
  | makeDirectory
  | writeFile
  | closeFile
  deriving Repr, DecidableEq, Inhabited

namespace DiskAction

/-- The name of an operation in diagnostics. -/
def name : DiskAction → Bytes
  | openFile => "open"
  | readFile => "read"
  | makeDirectory => "mkdir"
  | writeFile => "write"
  | closeFile => "close"

end DiskAction

/-- A failed operation on a path. -/
structure DiskError where
  action : DiskAction
  path : Path
  cause : DiskCause
  deriving Repr, DecidableEq, Inhabited

/-- The wording of a failed operation. -/
def DiskError.message (e : DiskError) : Bytes :=
  e.action.name ++ " " ++ e.path ++ ": " ++ e.cause.message

namespace Disk

/-- A directory or a regular file with its content. -/
inductive Entry where
  | directory
  | file (content : Bytes)
  deriving Repr, DecidableEq, Inhabited

/-- The names that lead from the root to an entry, innermost first. -/
abbrev Location := List Bytes

/-- The absolute path of a location. -/
def Location.path (l : Location) : Path :=
  Bytes.slash :: Bytes.joinWith [Bytes.slash] l.reverse

/-- How writing to an opened file breaks off. -/
structure Flaw where
  /-- How many bytes reach the file at most. -/
  taken : Nat
  cause : DiskCause
  /-- Does the failure show only when the file is closed? -/
  onClose : Bool := false
  deriving Repr, DecidableEq, Inhabited

namespace Flaw

/-- Does the flaw show when a content is written? What fits into the file is written, but closing
the file may fail nevertheless. -/
def showsOn (f : Flaw) (content : Bytes) : Bool :=
  f.onClose || f.taken < content.length

/-- The operation that fails. -/
def action (f : Flaw) : DiskAction :=
  if f.onClose then .closeFile else .writeFile

/-- The error of writing to the file at a path. -/
def error (f : Flaw) (p : Path) : DiskError :=
  ⟨f.action, p, f.cause⟩

end Flaw

/-- How a file is opened for writing: emptied, or with the new content behind the old one. -/
inductive Mode where
  | replace
  | extend
  deriving Repr, DecidableEq, Inhabited

/-- What stays of an entry that is opened for writing. -/
def Mode.kept : Mode → Option Entry → Bytes
  | extend, some (.file content) => content
  | _, _ => []

end Disk

/-- A tree of files, the directory relative paths start from, and the flaw that writing meets, if
there is one. -/
structure Disk where
  workDir : Disk.Location
  entries : List (Disk.Location × Disk.Entry)
  flaw? : Option Disk.Flaw := none
  deriving Repr, DecidableEq, Inhabited

namespace Disk

/-- The longest name of a directory entry, in bytes. -/
def maxName : Nat := 255

/-- Paths of this many bytes or more are refused. -/
def maxPath : Nat := 4096

/-- What stands at a location; the root is always a directory. -/
def lookup? (d : Disk) (l : Location) : Option Entry :=
  if l.isEmpty then some .directory else d.entries.lookup l

/-- Where a path starts. -/
def start (d : Disk) (p : Path) : Location :=
  if p.isAbsolute then [] else d.workDir

/-- Where one element of a path leads, without looking at the disk. -/
def enter (l : Location) (e : Bytes) : Location :=
  if e.isEmpty || e == Path.here then l
  else if e == Path.parent then l.tail
  else e :: l

/-- Follows one element of a path. -/
def step (d : Disk) (l : Location) (e : Bytes) : Except DiskCause Location :=
  match d.lookup? l with
  | some .directory =>
    if e.length > maxName then .error .nameTooLong
    else if (d.lookup? (enter l e)).isNone then .error .notFound
    else .ok (enter l e)
  | some (.file _) => .error .notDirectory
  | none => .error .notFound

/-- Is the text of a path acceptable at all? -/
def checkPath (p : Path) : Except DiskCause Unit :=
  if p.contains 0 then .error .invalidArgument
  else if p.isEmpty then .error .notFound
  else if p.length ≥ maxPath then .error .nameTooLong
  else .ok ()

/-- The location of the entry a path leads to. -/
def locate (d : Disk) (p : Path) : Except DiskCause Location := do
  checkPath p
  p.elements.foldlM d.step (d.start p)

/-- The location a path names, whether or not anything is there. -/
def destination (d : Disk) (p : Path) : Location :=
  p.elements.foldl enter (d.start p)

/-- The identity of a path: its absolute, cleaned form. -/
def identity (d : Disk) (p : Path) : Path :=
  (d.destination p).path

/-- The entry a path leads to. -/
def find (d : Disk) (p : Path) : Except DiskCause Entry := do
  let l ← d.locate p
  match d.lookup? l with
  | some e => .ok e
  | none => .error .notFound

/-- Does the path lead to an entry? -/
def hasPath (d : Disk) (p : Path) : Bool :=
  (d.find p).isOk

/-- Opens a path for reading; directories can be opened too. -/
def openFile (d : Disk) (p : Path) : Except DiskError Entry :=
  (d.find p).mapError fun c => ⟨.openFile, p, c⟩

/-- The content of an opened entry; a directory has none. -/
def Entry.content (p : Path) : Entry → Except DiskError Bytes
  | .directory => .error ⟨.readFile, p, .isDirectory⟩
  | .file content => .ok content

/-- The content of the file a path leads to. -/
def read (d : Disk) (p : Path) : Except DiskError Bytes := do
  (← d.openFile p).content p

/-- The disk with the entry at `l` set to `e`. -/
def put (d : Disk) (l : Location) (e : Entry) : Disk :=
  { d with entries := (l, e) :: d.entries.filter fun x => x.1 != l }

/-- The path of the parent of a directory to be made, or nothing at the beginning of the path. -/
def parentPath (p : Path) : Path :=
  let trimmed := Bytes.dropEndWhile (· == Bytes.slash) p
  (Path.upToLastSlash trimmed).dropLast

/-- Splits a path into the path of the directory that holds its last element and that element. -/
def lastElement (p : Path) : Path × Bytes :=
  let trimmed := Bytes.dropEndWhile (· == Bytes.slash) p
  (Path.upToLastSlash trimmed, Path.afterLastSlash trimmed)

/-- The location where the last element of a path is to be created. -/
def creationPoint (d : Disk) (p : Path) : Except DiskCause Location := do
  checkPath p
  let (front, name) := lastElement p
  let l ← front.elements.foldlM d.step (d.start p)
  match d.lookup? l with
  | some .directory =>
    if name.length > maxName then .error .nameTooLong else .ok (enter l name)
  | some (.file _) => .error .notDirectory
  | none => .error .notFound

/-- What an attempt to change a disk leads to: the disk it leaves, and why it failed if it did.
Directories made on the way stay when a later part of the attempt fails. -/
structure Change where
  disk : Disk
  error? : Option DiskError := none
  deriving Repr, DecidableEq, Inhabited

/-- Goes on with `next` on the disk that a change leaves, unless it failed. -/
def Change.andThen (c : Change) (next : Disk → Change) : Change :=
  if c.error?.isSome then c else next c.disk

/-- The attempt that changes nothing and fails. -/
def refuse (d : Disk) (action : DiskAction) (p : Path) (cause : DiskCause) : Change :=
  ⟨d, some ⟨action, p, cause⟩⟩

/-- Makes one directory whose parent exists. -/
def makeDirectory (d : Disk) (p : Path) : Change :=
  match d.creationPoint p with
  | .ok l => ⟨d.put l .directory, none⟩
  | .error c => d.refuse .makeDirectory p c

/-- Dropping bytes from the end never lengthens a path. -/
theorem length_dropEndWhile_le (f : UInt8 → Bool) (s : Bytes) :
    (Bytes.dropEndWhile f s).length ≤ s.length := by
  have h := (List.dropWhile_suffix (l := s.reverse) f).length_le
  simpa [Bytes.dropEndWhile] using h

/-- The path of the parent is shorter than a path that is not empty. -/
theorem length_parentPath_lt {p : Path} (h : (parentPath p).isEmpty = false) :
    (parentPath p).length < p.length := by
  have h1 := length_dropEndWhile_le (· == Bytes.slash) p
  have h2 := length_dropEndWhile_le (· != Bytes.slash) (Bytes.dropEndWhile (· == Bytes.slash) p)
  have h3 : 0 < (parentPath p).length := by
    cases hp : parentPath p with
    | nil => simp [hp] at h
    | cons b s => simp
  simp only [parentPath, Path.upToLastSlash, List.length_dropLast] at h3 ⊢
  omega

/-- Makes a directory and every missing directory above it. -/
def makeDirectories (d : Disk) (p : Path) : Change :=
  match d.find p with
  | .ok .directory => ⟨d, none⟩
  | .ok (.file _) => d.refuse .makeDirectory p .notDirectory
  | .error _ =>
    if _h : (parentPath p).isEmpty = false then
      (d.makeDirectories (parentPath p)).andThen (·.makeDirectory p)
    else d.makeDirectory p
termination_by p.length
decreasing_by exact length_parentPath_lt _h

/-- What of a content reaches the file it is written to. -/
def reaching (d : Disk) (content : Bytes) : Bytes :=
  d.flaw?.elim content fun f => content.take f.taken

/-- The flaw that shows when a content is written, if there is one. -/
def breach? (d : Disk) (content : Bytes) : Option Flaw :=
  d.flaw?.filter (·.showsOn content)

/-- Opens a path for writing, makes the file if it is missing, and hands it the content. A path
that ends in a slash can only name a directory. A flaw of the disk shows only when the file has been
opened. -/
def overwrite (d : Disk) (p : Path) (content : Bytes) (mode : Mode := .replace) : Change :=
  match d.creationPoint p with
  | .error c => d.refuse .openFile p c
  | .ok l =>
    if p.getLast? == some Bytes.slash || d.lookup? l == some .directory then
      d.refuse .openFile p .isDirectory
    else
      ⟨d.put l (.file (mode.kept (d.lookup? l) ++ d.reaching content)),
        (d.breach? content).map (·.error p)⟩

/-- Makes the directories that lead to a file. -/
def makeWay (d : Disk) (p : Path) : Change :=
  if p.dir == Path.here then ⟨d, none⟩ else d.makeDirectories p.dir

/-- Writes a file, making the directories that lead to it when they are missing. -/
def write (d : Disk) (p : Path) (content : Bytes) (mode : Mode := .replace) : Change :=
  (d.makeWay p).andThen (·.overwrite p content mode)

/-- The path that `target` means inside the file `source`: an absolute path stands for itself, a
relative one for the file next to `source` if there is one, else for itself. -/
def includePath (d : Disk) (source target : Path) : Path :=
  if target.isAbsolute then target
  else
    let sibling := Path.join (Path.dir source) target
    if d.hasPath sibling then sibling else target

/-- The regular files of a disk with their contents. -/
def files (d : Disk) : List (Location × Bytes) :=
  d.entries.filterMap fun
    | (l, .file content) => some (l, content)
    | (_, .directory) => none

end Disk

end ForthFrontend
