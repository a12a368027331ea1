import ForthFrontend.Text.Bytes

/-!
# Paths

A path is a byte string whose elements are separated by slashes. Everything here works on the text
of a path alone; looking a path up on a disk is a different matter.

## Main definitions

* `Path.elements`: the pieces between the slashes.
* `Path.clean`: the shortest path that is equal on a tree without links.
* `Path.join`, `Path.dir`: building and taking apart.
* `Path.extension`, `Path.stem`, `Path.withDefaultExtension`: names of source and image files.
-/

namespace ForthFrontend

/-- A file system path. -/
abbrev Path := Bytes

namespace Path

/-- The element that names the directory it stands in. -/
def here : Bytes := "."

/-- The element that names the parent directory. -/
def parent : Bytes := ".."

/-- Does the path start at the root of the file system? -/
def isAbsolute (p : Path) : Bool :=
  p.head? == some Bytes.slash

/-- The pieces of a path between its slashes; some of them may be empty. -/
def elements (p : Path) : List Bytes :=
  p.splitOn Bytes.slash

/-- Puts one more element on top of the elements of a cleaned path, innermost first. An element
that names the parent takes away the element below it, unless there is none or it names a parent
itself. -/
def push (rooted : Bool) (stack : List Bytes) (e : Bytes) : List Bytes :=
  if e.isEmpty || e == here then stack
  else if e == parent then
    match stack with
    | [] => if rooted then [] else [parent]
    | top :: below => if top == parent then parent :: stack else below
  else e :: stack

/-- The shortest path equal to `p`: no empty element, no element `.`, and `..` only at the
beginning of a path that is not absolute. -/
def clean (p : Path) : Path :=
  let rooted := isAbsolute p
  let names := (p.elements.foldl (push rooted) []).reverse
  if rooted then Bytes.slash :: Bytes.joinWith [Bytes.slash] names
  else if names.isEmpty then here
  else Bytes.joinWith [Bytes.slash] names

/-- The path of `target` seen from the directory `base`. -/
def join (base target : Path) : Path :=
  if base.isEmpty then (if target.isEmpty then [] else clean target)
  else clean (base ++ Bytes.slash :: target)

/-- Everything up to the last slash, the slash included. -/
def upToLastSlash (p : Path) : Path :=
  Bytes.dropEndWhile (· != Bytes.slash) p

/-- What follows the last slash. -/
def afterLastSlash (p : Path) : Path :=
  (p.reverse.takeWhile (· != Bytes.slash)).reverse

/-- The directory that holds the file named by `p`. -/
def dir (p : Path) : Path :=
  clean (upToLastSlash p)

/-- The last element of a path: slashes at its end do not count, an empty path counts as `.` and a
path of slashes only as `/`. -/
def base (p : Path) : Bytes :=
  if p.isEmpty then here
  else
    let trimmed := Bytes.dropEndWhile (· == Bytes.slash) p
    if trimmed.isEmpty then [Bytes.slash] else afterLastSlash trimmed

/-- The part of the last element from its last dot on, or nothing if it has no dot. -/
def extension (p : Path) : Bytes :=
  let name := afterLastSlash p
  if name.contains Bytes.dot then
    Bytes.dot :: (name.reverse.takeWhile (· != Bytes.dot)).reverse
  else []

/-- The last element of a path without its extension. -/
def stem (p : Path) : Bytes :=
  let name := base p
  name.take (name.length - (extension name).length)

/-- The extension of source files. -/
def sourceExtension : Bytes := ".4th"

/-- The path itself, or with the extension of source files if it has none. -/
def withDefaultExtension (p : Path) : Path :=
  if (extension p).isEmpty then p ++ sourceExtension else p

end Path

end ForthFrontend
