import ForthFrontend.Path
import ForthFrontend.Text.Case
import ForthFrontend.Text.Decimal

/-!
# Atoms

An atom is the smallest lexical unit of a program: a word or one of two kinds of string literal,
together with the file and line it was found in. A program is a sequence of atoms.

## Main definitions

* `AtomKind`, `Atom`: lexical units and their kinds.
* `Atom.isWord`: is the atom a given word, up to letter case?
* `Atom.texts`, `Atom.sequenceText`, `Atom.files`: views of a sequence of atoms.
-/

namespace ForthFrontend

/-- The lexical shape of an atom. -/
inductive AtomKind where
  /-- A maximal run of characters other than white space. -/
  | word
  /-- A literal `."..."`, delimiters included. -/
  | displayString
  /-- A literal `"..."`, delimiters included. -/
  | dumpString
  /-- A tag with no lexical meaning; no scan produces it. -/
  | undefined
  deriving Repr, DecidableEq, Inhabited

namespace AtomKind

/-- The kinds that scanning produces. -/
def defined : List AtomKind := [word, displayString, dumpString]

/-- The name of a kind in listings and dumps. -/
def name : AtomKind → Bytes
  | word => "word"
  | displayString => "display-string"
  | dumpString => "dump-string"
  | undefined => "unknown"

/-- The defined kind with the given name. -/
def ofName? (s : Bytes) : Option AtomKind :=
  defined.find? (·.name == s)

end AtomKind

/-- A lexical unit with the place it came from. Lines are counted from one. -/
structure Atom where
  text : Bytes
  kind : AtomKind := .word
  file : Path := []
  line : Int64 := 0
  deriving Repr, DecidableEq, Inhabited

namespace Atom

/-- What stands past the end of a sequence: an empty word from nowhere. -/
def absent : Atom := { text := [] }

/-- The place of an atom as `file:line`. -/
def position (a : Atom) : Bytes :=
  a.file ++ 0x3A :: Decimal.ofInt64 a.line

/-- Is the atom the word `name`, up to letter case? String literals are never words. -/
def isWord (a : Atom) (name : Bytes) : Bool :=
  a.kind == .word && Bytes.equalFold a.text name

/-- The texts of a sequence of atoms. -/
def texts (atoms : List Atom) : List Bytes :=
  atoms.map text

/-- The texts of a sequence of atoms with a space between neighbours. -/
def sequenceText (atoms : List Atom) : Bytes :=
  Bytes.joinWith [Bytes.space] (texts atoms)

/-- The distinct files of a sequence of atoms, in the order of their first atoms. -/
def files (atoms : List Atom) : List Path :=
  (atoms.map file).eraseDups

end Atom

end ForthFrontend
