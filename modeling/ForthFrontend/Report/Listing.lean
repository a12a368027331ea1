import ForthFrontend.Report.Table
import ForthFrontend.Symbols

/-!
# Listings

The tables that reports show: how many definitions a program has, what its symbol tables hold, and
its atoms.

## Main definitions

* `Listing.summary`: how many definitions there are of each kind.
* `Listing.mapSections`: the symbol tables of a program.
* `Listing.atoms`: the atoms of a program with their origins.
-/

namespace ForthFrontend.Listing

/-- The numbers of definitions with their names. -/
def counts (s : Summary) : List (Bytes × Int64) := [
  ("Constants", s.constants), ("Global variables", s.globals), ("Local variables", s.locals),
  ("Words", s.words), ("External words", s.externals)]

/-- The rows of the summary, which leaves out kinds without definitions. -/
def summaryRows (s : Summary) : List (List Bytes) :=
  ((counts s).filter fun c => 0 < c.2).map fun c => [c.1, Decimal.ofInt64 c.2]

/-- How many definitions there are of each kind. -/
def summary (s : Summary) : Bytes :=
  if (summaryRows s).isEmpty then "No definitions.\n"
  else
    Table.render
      { columns := [⟨"Definitions", .left⟩, ⟨"Count", .right⟩], rows := summaryRows s }

/-- A part of the map: its title and its table. -/
structure Section where
  title : Bytes
  table : Table
  deriving Repr, DecidableEq, Inhabited

/-- The constants of a program. -/
def constants (t : SymbolTables) : Section where
  title := "Global constants"
  table :=
    { columns := [⟨"Name", .left⟩, ⟨"Value", .left⟩]
      rows := t.constants.map fun c => [c.name, c.value.render] }

/-- The global variables of a program. -/
def globals (t : SymbolTables) : Section where
  title := "Global variables"
  table :=
    { columns := [⟨"Name", .left⟩, ⟨"Addr", .left⟩, ⟨"Size", .left⟩]
      rows := t.globals.map fun g =>
        [g.name, Decimal.ofInt64 g.address, Decimal.ofInt64 g.size] }

/-- The local variables of a program. -/
def locals (t : SymbolTables) : Section where
  title := "Local variables"
  table :=
    { columns := [⟨"Name", .left⟩, ⟨"Addr", .left⟩, ⟨"Word", .left⟩]
      rows := t.locals.map fun l => [l.name, Decimal.ofInt64 l.address, l.word] }

/-- The external words of a program. -/
def externals (t : SymbolTables) : Section where
  title := "External words"
  table :=
    { columns := [⟨"Name", .left⟩, ⟨"Library", .left⟩, ⟨"Class", .left⟩, ⟨"Method", .left⟩]
      rows := t.externals.map fun e => [e.name, e.library, e.className, e.method] }

/-- The symbol tables of a program. -/
def mapSections (t : SymbolTables) : List Section :=
  [constants t, globals t, locals t, externals t]

/-- The rows of the atoms, the first of which has number `n`. -/
def atomRows (n : Nat) (found : List (List Bytes)) : List Atom → List (List Bytes)
  | [] => found.reverse
  | a :: rest =>
    atomRows (n + 1) ([Decimal.ofNat n, a.text, a.kind.name, a.position] :: found) rest

/-- The atoms of a program with their kinds and origins. -/
def atoms (as : List Atom) : Bytes :=
  Table.render
    { columns := [⟨"#", .left⟩, ⟨"Atom", .left⟩, ⟨"Kind", .left⟩, ⟨"Origin", .left⟩]
      rows := atomRows 0 [] as
      footer := [[], Decimal.ofNat as.length ++ " atoms", [],
        Decimal.ofNat (Atom.files as).length ++ " files"] }

end ForthFrontend.Listing
