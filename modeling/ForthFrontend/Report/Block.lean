import ForthFrontend.Text.Column

/-!
# Blocks of text

A block is a list of lines that are brought to one width: tabs are expanded, lines that are too long
are broken between words, and short lines are filled with spaces.

A word is broken only if it is longer than a whole line. Spaces at a break disappear. A hyphen ends
a word, so a line may be broken after it.

## Main definitions

* `Block.lines`: the lines of a text, with tabs expanded.
* `Block.wrap`: the lines a long line is broken into.
* `Block.align`: lines filled up to one width.
* `Block.cut`: a line cut off at a width.
* `Block.fit`: a block of a given width and height.
-/

namespace ForthFrontend.Block

/-- The text with a line feed for every carriage return that a line feed follows. -/
def unixLinesInto (found : Bytes) : Bytes → Bytes
  | [] => found.reverse
  | 0x0D :: 0x0A :: rest => unixLinesInto (Bytes.lf :: found) rest
  | b :: rest => unixLinesInto (b :: found) rest

/-- The text with every line ended by a single line feed. -/
def unixLines (s : Bytes) : Bytes :=
  if s.contains Bytes.cr then unixLinesInto [] s else s

/-- The text with four spaces for every tab. -/
def expandTabs (s : Bytes) : Bytes :=
  if s.contains 0x09 then s.flatMap fun b => if b == 0x09 then Bytes.blanks 4 else [b] else s

/-- The lines of a text, with tabs expanded. -/
def lines (s : Bytes) : List Bytes :=
  (unixLines (expandTabs s)).splitOn Bytes.lf

/-! ## Breaking lines -/

/-- A line that is being broken: the finished lines, latest first, the line at hand with its width,
the spaces after it, and the word after those with its width. -/
structure Breaking where
  finished : List Bytes := []
  line : Bytes := []
  width : Nat := 0
  spaces : Nat := 0
  word : Bytes := []
  wordWidth : Nat := 0
  deriving Repr, DecidableEq, Inhabited

namespace Breaking

/-- Moves the spaces to the line. -/
def takeSpaces (b : Breaking) : Breaking :=
  { b with line := b.line ++ Bytes.blanks b.spaces, width := b.width + b.spaces, spaces := 0 }

/-- Moves the word to the line, with the spaces before it. -/
def takeWord (b : Breaking) : Breaking :=
  if b.word.isEmpty then b
  else
    let b := b.takeSpaces
    { b with line := b.line ++ b.word, width := b.width + b.wordWidth, word := [], wordWidth := 0 }

/-- Breaks the line before the word. -/
def startLine (b : Breaking) : Breaking :=
  { b with finished := b.line :: b.finished, line := [], width := 0, spaces := 0 }

/-- Goes on with the word. A word that does not fit on a line of its own is broken. -/
def extend (limit : Nat) (b : Breaking) (p : Text.Piece) : Breaking :=
  let b := if limit < b.wordWidth + p.width then b.takeWord else b
  let b := { b with word := b.word ++ p.bytes, wordWidth := b.wordWidth + p.width }
  if limit < b.width + b.wordWidth + b.spaces then b.startLine else b

/-- Goes on with one piece. -/
def next (limit : Nat) (b : Breaking) (p : Text.Piece) : Breaking :=
  if p.width == 0 then { b with word := b.word ++ p.bytes }
  else if p.bytes == [Bytes.space] then
    let b := b.takeWord
    { b with spaces := b.spaces + 1 }
  else if p.bytes == [0x2D] then
    let b := b.takeSpaces
    if b.width + b.wordWidth + p.width ≤ limit then
      let b := b.takeWord
      { b with line := b.line ++ p.bytes, width := b.width + p.width }
    else b.extend limit p
  else b.extend limit p

/-- Finishes the line. Spaces at its end stay if they fit. -/
def finish (limit : Nat) (b : Breaking) : List Bytes :=
  let b :=
    if b.wordWidth != 0 then b
    else if limit < b.width + b.spaces then { b with spaces := 0 }
    else b.takeSpaces
  (b.takeWord.line :: b.finished).reverse

end Breaking

/-- The lines a long line is broken into. -/
def wrap (limit : Nat) (line : Bytes) : List Bytes :=
  ((Text.pieces line).foldl (Breaking.next limit) {}).finish limit

/-! ## One width for all lines -/

/-- The widest line. -/
def widest (ls : List Bytes) : Nat :=
  (ls.map Text.styledColumns).foldl max 0

/-- The line filled with spaces up to a width. -/
def fill (width : Nat) (line : Bytes) : Bytes :=
  line ++ Bytes.blanks (width - Text.styledColumns line)

/-- Lines filled with spaces up to the widest of them, and to at least `width`. -/
def align (width : Nat) (ls : List Bytes) : List Bytes :=
  ls.map (fill (max width (widest ls)))

/-- Is the piece kept after the end of a line that is cut off? -/
def isSilent (p : Text.Piece) : Bool :=
  p.width == 0 && p.bytes.head?.any (· < 0x80)

/-- The pieces that fit into a width, behind those found so far, latest first. After the first one
that does not fit, escape sequences and controls are all that is kept. -/
def cutInto (found : List Text.Piece) (width : Nat) (full : Bool) :
    List Text.Piece → List Text.Piece
  | [] => found.reverse
  | p :: rest =>
    if isSilent p then cutInto (p :: found) width full rest
    else if full || width < p.width then cutInto found width true rest
    else cutInto (p :: found) (width - p.width) false rest

/-- The line cut off at a width. -/
def cut (width : Nat) (line : Bytes) : Bytes :=
  if Text.styledColumns line ≤ width then line
  else (cutInto [] width false (Text.pieces line)).flatMap Text.Piece.bytes

/-- A block of `height` lines of the given width. Without a width the lines keep their length, and
all of them become as wide as the widest. -/
def fit (width height : Nat) (ls : List Bytes) : List Bytes :=
  let broken := if width == 0 then ls else ls.flatMap (wrap width)
  let filled := broken ++ List.replicate (height - broken.length) []
  let aligned := align width filled
  (if width == 0 then aligned else aligned.map (cut width)).take height

end ForthFrontend.Block
