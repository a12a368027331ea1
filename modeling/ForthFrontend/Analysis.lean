import ForthFrontend.Definition
import ForthFrontend.Journal

/-!
# Analysis of programs

The definitions of a program are collected into symbol tables, in source order. Global variables get
consecutive addresses from zero on, the variables of a word are numbered from zero. Constants,
variables, words and external words share one space of names; the variables of a word have a space
of their own. Two names are the same when their upper-case forms are.

## Main definitions

* `Analysis`: the tables so far, the names taken and the next free cell.
* `Analysis.add`: the analysis with one more definition.
* `Analysis.tables`: the tables of a program.
-/

namespace ForthFrontend

/-- What is known after some definitions: their tables, the names they take, in upper case, and the
first free cell. -/
structure Analysis where
  tables : SymbolTables := {}
  names : List Bytes := []
  nextCell : Int64 := 0
  deriving Repr, DecidableEq, Inhabited

namespace Analysis

/-- Takes a name, unless it is taken already. -/
def declare (s : Analysis) (name : Atom) : Except SourceError Analysis :=
  if s.names.contains name.text.toUpper then .error (Definition.duplicate name)
  else .ok { s with names := name.text.toUpper :: s.names }

/-- The variables of a word, numbered from `address` on. -/
def numberLocals (word : Bytes) : Nat → List Atom → List LocalVariable
  | _, [] => []
  | address, l :: rest =>
    ⟨l.text, word, Int64.ofNat address⟩ :: numberLocals word (address + 1) rest

/-- The analysis with one more definition. -/
def add (s : Analysis) : Definition → Except SourceError Analysis
  | .library name => .ok { s with tables.library := name.text }
  | .constant name value => do
    let s ← s.declare name
    return { s with tables.constants := s.tables.constants ++ [⟨name.text, value⟩] }
  | .global name size => do
    let s ← s.declare name
    return { s with
      tables.globals := s.tables.globals ++ [⟨name.text, size, s.nextCell⟩]
      nextCell := s.nextCell + size }
  | .word name locals body => do
    let s ← s.declare name
    return { s with
      tables.words := s.tables.words ++ [⟨name.text, body⟩]
      tables.locals := s.tables.locals ++ numberLocals name.text 0 locals }
  | .external name library className method => do
    let s ← s.declare name
    return { s with
      tables.externals := s.tables.externals ++
        [⟨name.text, library.text, className.text, method.text⟩] }

/-- Goes through the definitions of a sequence of atoms. -/
def run (s : Analysis) (atoms : List Atom) : Except SourceError Analysis :=
  match atoms with
  | [] => .ok s
  | a :: rest =>
    match _h : Definition.read a rest with
    | .error e => .error e
    | .ok (d, after) =>
      match s.add d with
      | .error e => .error e
      | .ok s => s.run after
termination_by atoms.length
decreasing_by exact Definition.length_of_read _h

end Analysis

/-- The symbol tables of a program. A cancelled run fails unless there is nothing to do. -/
def analyze (cancelled : Bool) (atoms : List Atom) : Traced SymbolTables :=
  if cancelled && !atoms.isEmpty then ⟨[], .error .cancelled⟩
  else
    match Analysis.run {} atoms with
    | .error e => ⟨[], .error (.source e)⟩
    | .ok s => ⟨[.symbolsResolved], .ok s.tables⟩

end ForthFrontend
