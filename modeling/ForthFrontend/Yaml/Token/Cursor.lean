import ForthFrontend.Yaml.Problem

/-!
# Reading characters

A cursor stands in front of the characters that are still to be read and knows its place.

## Main definitions

* `Yaml.Cursor`: characters to be read, and the place of the first of them.
* `Yaml.Cursor.skip`, `Yaml.Cursor.advance`: moves on inside a line.
* `Yaml.Cursor.takeBreak`: moves past a line break.
-/

namespace ForthFrontend.Yaml

/-- The characters still to be read. -/
structure Cursor where
  rest : List Nat
  mark : Mark := {}
  /-- The line breaks since the last character that was neither blank nor a line break. -/
  breaks : Nat := 0
  deriving Repr, DecidableEq, Inhabited

namespace Cursor

/-- The next character. -/
def head? (c : Cursor) : Option Nat :=
  c.rest.head?

/-- Is the next character `v`? -/
def sees (c : Cursor) (v : Nat) : Bool :=
  c.head? == some v

/-- Does the character at a distance end a word: a blank, a line break or the end? -/
def wordEndsAt (c : Cursor) (n : Nat) : Bool :=
  (c.rest.drop n).head?.all fun v => isBlank v || isBreak v

/-- Is the next character a line break, or is there none? -/
def atLineEnd (c : Cursor) : Bool :=
  c.head?.all isBreak

/-- Is the next character a line break? -/
def atBreak (c : Cursor) : Bool :=
  c.head?.any isBreak

/-- Is the next character a blank? -/
def atBlank (c : Cursor) : Bool :=
  c.head?.any isBlank

/-- Moves past `n` characters of the line. -/
def advance (c : Cursor) (n : Nat) : Cursor where
  rest := c.rest.drop n
  mark := { c.mark with index := c.mark.index + n, column := c.mark.column + n }
  breaks := if (c.rest.take n).all isBlank then c.breaks else 0

/-- Moves past one character of the line. -/
def skip (c : Cursor) : Cursor :=
  c.advance 1

/-- Moves past the characters of the line that satisfy `p`. -/
def skipWhile (c : Cursor) (p : Nat → Bool) : Cursor :=
  c.advance (c.rest.takeWhile p).length

/-- Moves to the end of the line. -/
def toLineEnd (c : Cursor) : Cursor :=
  c.skipWhile (!isBreak ·)

/-- Moves past a line break made of `n` characters. -/
def newLine (c : Cursor) (n : Nat) : Cursor where
  rest := c.rest.drop n
  mark := ⟨c.mark.index + n, c.mark.line + 1, 0⟩
  breaks := c.breaks + 1

/-- What a line break at the cursor stands for, and the cursor behind it. Separators of lines and
paragraphs stand for themselves, all other breaks for a line feed. -/
def takeBreak (c : Cursor) : List Nat × Cursor :=
  match c.rest with
  | 0x0D :: 0x0A :: _ => ([0x0A], c.newLine 2)
  | v :: _ =>
    if isBreak v then (if v == 0x2028 || v == 0x2029 then [v] else [0x0A], c.newLine 1)
    else ([], c)
  | [] => ([], c)

/-- Moves past a line break, if there is one. -/
def skipBreak (c : Cursor) : Cursor :=
  c.takeBreak.2

/-- Do three equal marks, alone on their line or followed by a blank, begin the line? -/
def atDocumentMark (c : Cursor) : Bool :=
  c.mark.column == 0 &&
    ([0x2D, 0x2D, 0x2D].isPrefixOf c.rest || [0x2E, 0x2E, 0x2E].isPrefixOf c.rest)
    && c.wordEndsAt 3

end Cursor

end ForthFrontend.Yaml
