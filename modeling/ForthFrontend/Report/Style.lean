import ForthFrontend.Report.Block

/-!
# Styles

Parts of a report can be set off by a style. On a terminal with colours a style is a sequence of
codes around the text; without colours the text stands as it is. Either way the lines of a styled
text are brought to one width.

A heading is underlined. It is styled character by character, so that the spaces in it can be
treated apart, and stray bytes become replacement characters.

## Main definitions

* `Palette`: are there colours?
* `Style`: the styles.
* `Style.apply`: a text in a style.
* `Style.box`: a text in a frame.
-/

namespace ForthFrontend

/-- Which colours a report may use. -/
inductive Palette where
  | none
  | sixteen
  deriving Repr, DecidableEq, Inhabited

/-- How a part of a report is set off. -/
inductive Style where
  /-- A good outcome, in green. -/
  | good
  /-- A bad outcome, in bold red. -/
  | bad
  | faint
  /-- The name of the program, in bold blue. -/
  | banner
  /-- A heading, bold and underlined. -/
  | heading
  deriving Repr, DecidableEq, Inhabited

namespace Style

/-- The codes of a style. -/
def codes : Style → Bytes
  | good => "92"
  | bad => "1;91"
  | faint => "2"
  | banner => "1;94"
  | heading => "1;4;4"

/-- The codes of the spaces of a heading. -/
def spaceCodes : Bytes := "4"

/-- A text between its codes and the code that ends them. -/
def coded (p : Palette) (codes text : Bytes) : Bytes :=
  match p with
  | .none => text
  | .sixteen => [0x1B, 0x5B] ++ codes ++ [0x6D] ++ text ++ [0x1B, 0x5B, 0x30, 0x6D]

/-- A character of a heading. -/
def headingUnit (p : Palette) (u : Utf8.Unit) : Bytes :=
  coded p (if Bytes.isSpaceUnit u then spaceCodes else heading.codes) (Utf8.encode u.value)

/-- A line in a style. -/
def applyLine (p : Palette) (s : Style) (line : Bytes) : Bytes :=
  match s with
  | heading => (Utf8.units line).flatMap (headingUnit p)
  | _ => coded p s.codes line

/-- A text in a style. -/
def apply (p : Palette) (s : Style) (text : Bytes) : Bytes :=
  Bytes.joinWith [Bytes.lf] (Block.align 0 ((Block.lines text).map (s.applyLine p)))

/-- `n` copies of a text. -/
def copies (n : Nat) (text : Bytes) : Bytes :=
  (List.replicate n text).flatten

/-- A line between the sides of a frame. -/
def framed (line : Bytes) : Bytes :=
  "│" ++ line ++ "│"

/-- The lines of a text in a style and a rounded frame, two spaces from its sides. -/
def box (p : Palette) (s : Style) (ls : List Bytes) : Bytes :=
  let margin := Bytes.blanks 2
  let inner := Block.align 0 (ls.map fun l => margin ++ s.applyLine p l ++ margin)
  let edge := copies (Block.widest inner) "─"
  let top : Bytes := "╭" ++ edge ++ "╮"
  let bottom : Bytes := "╰" ++ edge ++ "╯"
  Bytes.joinWith [Bytes.lf] (top :: inner.map framed ++ [bottom])

end Style

end ForthFrontend
