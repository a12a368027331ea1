import ForthFrontend.Text.Column

/-!
# Tables

A table has a header, rows and possibly a footer. Every column is as wide as its widest cell. The
header stands over a rule; the footer stands between two rules, the second of which leaves out the
first column. A cell of several lines makes its row taller.

## Main definitions

* `Table`: the cells of a table.
* `Table.widths`: the widths of its columns.
* `Table.render`: the table as text.
-/

namespace ForthFrontend

/-- Where the text of a cell stands when the column is wider. -/
inductive Alignment where
  | left
  | right
  | centre
  deriving Repr, DecidableEq, Inhabited

/-- The text with `gap` spaces around it. -/
def Alignment.pad (a : Alignment) (gap : Nat) (text : Bytes) : Bytes :=
  match a with
  | left => text ++ Bytes.blanks gap
  | right => Bytes.blanks gap ++ text
  | centre => Bytes.blanks (gap / 2) ++ text ++ Bytes.blanks (gap - gap / 2)

/-- A column: its title and where the text of its cells stands. -/
structure Column where
  title : Bytes
  alignment : Alignment := .left
  deriving Repr, DecidableEq, Inhabited

/-- A table. A footer without cells is no footer. -/
structure Table where
  columns : List Column
  rows : List (List Bytes) := []
  footer : List Bytes := []
  deriving Repr, DecidableEq, Inhabited

namespace Table

/-- The lines of a cell. -/
def cellLines (cell : Bytes) : List Bytes :=
  cell.splitOn Bytes.lf

/-- The width of a cell. -/
def cellWidth (cell : Bytes) : Nat :=
  ((cellLines cell).map Text.columns).foldl max 0

/-- The widths of columns with one more row of cells. -/
def widen (widths : List Nat) (row : List Bytes) : List Nat :=
  List.zipWith (fun w cell => max w (cellWidth cell)) widths row

/-- The width of every column. -/
def widths (t : Table) : List Nat :=
  let titles := t.columns.map fun c => cellWidth c.title
  let ends := if t.footer.isEmpty then titles else widen titles t.footer
  t.rows.foldl widen ends

/-- One line of a cell, brought to the width of its column. -/
def padCell (a : Alignment) (width : Nat) (line : Bytes) : Bytes :=
  a.pad (width - Text.columns line) line

/-- The space at both ends of a line. -/
def margin : Bytes := Bytes.blanks 2

/-- A line of cells. -/
def line (cells : List Bytes) : Bytes :=
  margin ++ Bytes.joinWith (Bytes.blanks 3) cells ++ margin ++ [Bytes.lf]

/-- What stands in a cell below its last line. -/
def missingLine : Bytes := Bytes.blanks 2

/-- The lines of a row of cells. -/
def rowLines (alignments : List Alignment) (widths : List Nat) (row : List Bytes) : List Bytes :=
  let cells := row.map cellLines
  let height := (cells.map List.length).foldl max 0
  let padding := alignments.zip widths
  (List.range height).map fun i =>
    line (List.zipWith (fun (p : Alignment × Nat) ls => padCell p.1 p.2 (ls.getD i missingLine))
      padding cells)

/-- The rows of a table behind the text found so far, whose pieces come latest first. -/
def rowsInto (alignments : List Alignment) (widths : List Nat) (found : List Bytes) :
    List (List Bytes) → List Bytes
  | [] => found.reverse
  | row :: rest =>
    rowsInto alignments widths ((rowLines alignments widths row).reverse ++ found) rest

/-- A run of dashes. -/
def dashes (n : Nat) : Bytes :=
  Bytes.fill n 0x2D

/-- The columns that a rule spans. -/
def span (widths : List Nat) : Nat :=
  Text.total (widths.map (· + 2))

/-- The rule under the header. -/
def rule (widths : List Nat) : Bytes :=
  dashes (span widths + 2) ++ [Bytes.lf]

/-- The rule under the footer, which leaves out the first column. -/
def closingRule (widths : List Nat) : Bytes :=
  Bytes.blanks (widths.headD 0 + 3) ++ dashes (span widths.tail + 2) ++ [Bytes.lf]

/-- The footer between its rules, if there is one. -/
def footerText (t : Table) (widths : List Nat) : Bytes :=
  if t.footer.isEmpty then []
  else rule widths ++ line (List.zipWith (padCell .centre) widths t.footer) ++ closingRule widths

/-- The table as text. -/
def render (t : Table) : Bytes :=
  let ws := t.widths
  let titles := line (List.zipWith (padCell .left) ws (t.columns.map Column.title))
  let rows := rowsInto (t.columns.map Column.alignment) ws [] t.rows
  titles ++ rule ws ++ rows.flatten ++ t.footerText ws

end Table

end ForthFrontend
