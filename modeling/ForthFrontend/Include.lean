import ForthFrontend.Source

/-!
# Include directives

The word `LOAD`, in any letter case, asks for the file named by the atom after it. This module holds
what can be said about directives in a sequence of atoms without resolving them.

## Main definitions

* `Include.isDirective`: is an atom the directive word?
* `Include.findDirective?`: the position of the first directive.
* `Include.splice`: a sequence with one directive replaced by the atoms of its file.
-/

namespace ForthFrontend.Include

/-- The word that asks for a file. -/
def keyword : Bytes := "LOAD"

/-- Is the atom the directive word? -/
def isDirective (a : Atom) : Bool :=
  a.isWord keyword

/-- The position of the first directive. -/
def findDirective? (atoms : List Atom) : Option Nat :=
  atoms.findIdx? isDirective

/-- The sequence with the directive at `pos` and its target replaced by `included`. -/
def splice (atoms : List Atom) (pos : Nat) (included : List Atom) : List Atom :=
  atoms.take pos ++ included ++ atoms.drop (pos + 2)

end ForthFrontend.Include
