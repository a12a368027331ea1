import ForthFrontend.Report.Style
import ForthFrontend.Text.Binary64

/-!
# The pager

Listings that do not fit on the terminal are shown in a window that the user moves with keys and
with the mouse wheel. Above the window stands a title, and below it a line that says how far the
listing has been scrolled and which keys there are.

Resizing the terminal changes the size of the window and leaves its offset alone.

## Main definitions

* `Pager`: a listing and the window on it.
* `Pager.Message`, `Pager.update`: what the user does and what it changes.
* `Pager.view`: what the user sees.
-/

namespace ForthFrontend

/-- A listing and the window on it. -/
structure Pager where
  title : Bytes
  lines : List Bytes
  width : Int
  /-- The lines of the window. -/
  height : Nat
  /-- The first line in the window. -/
  offset : Nat := 0
  /-- Has the user left the pager? -/
  closed : Bool := false
  deriving Repr, DecidableEq, Inhabited

namespace Pager

/-- The lines of the terminal that are not part of the window. -/
def chrome : Int64 := 3

/-- The lines of the window on a terminal with `height` lines, at least one. Lines are counted in 64
bits, so the window of a terminal with a number of lines near the least one is immense. -/
def windowHeight (height : Int) : Nat :=
  max (Int64.ofInt height - chrome).toInt.toNat 1

/-- A window at the beginning of a listing, on a terminal of the given size. -/
def start (title content : Bytes) (width height : Int) : Pager where
  title := title
  lines := (Block.unixLines content).splitOn Bytes.lf
  width := width
  height := windowHeight height

/-- The greatest offset that leaves no line of the window empty, or zero. -/
def maxOffset (p : Pager) : Nat :=
  p.lines.length - p.height

/-- Moves the window to an offset, but not beyond the end of the listing. -/
def moveTo (p : Pager) (offset : Nat) : Pager :=
  { p with offset := min offset p.maxOffset }

/-- Moves the window down, unless it is at the end. -/
def down (p : Pager) (n : Nat) : Pager :=
  if p.maxOffset ≤ p.offset || n == 0 then p else p.moveTo (p.offset + n)

/-- Moves the window up, unless it is at the beginning. -/
def up (p : Pager) (n : Nat) : Pager :=
  if p.offset == 0 || n == 0 then p else p.moveTo (p.offset - n)

/-- What the user can do with keys. -/
inductive Action where
  | leave
  | toTop
  | toBottom
  | lineUp
  | lineDown
  | pageUp
  | pageDown
  | halfPageUp
  | halfPageDown
  deriving Repr, DecidableEq, Inhabited

/-- The keys and what they do. -/
def keys : List (Bytes × Action) := [
  ("q", .leave), ("esc", .leave), ("ctrl+c", .leave), ("g", .toTop), ("home", .toTop),
  ("G", .toBottom), ("end", .toBottom), ("k", .lineUp), ("up", .lineUp), ("j", .lineDown),
  ("down", .lineDown), ("b", .pageUp), ("pgup", .pageUp), ("f", .pageDown), (" ", .pageDown),
  ("pgdown", .pageDown), ("u", .halfPageUp), ("ctrl+u", .halfPageUp), ("d", .halfPageDown),
  ("ctrl+d", .halfPageDown)]

/-- The lines that one step of the mouse wheel moves. -/
def wheelLines : Nat := 3

/-- Something the user does. -/
inductive Message where
  | key (name : Bytes)
  | wheelUp
  | wheelDown
  | resize (width height : Int)
  deriving Repr, DecidableEq, Inhabited

/-- Carries out an action. -/
def act (p : Pager) : Action → Pager
  | .leave => { p with closed := true }
  | .toTop => if p.offset == 0 then p else p.moveTo 0
  | .toBottom => p.moveTo p.maxOffset
  | .lineUp => p.up 1
  | .lineDown => p.down 1
  | .pageUp => p.up p.height
  | .pageDown => p.down p.height
  | .halfPageUp => p.up (p.height / 2)
  | .halfPageDown => p.down (p.height / 2)

/-- The action of a message, if it is a key that has one. -/
def Message.action? : Message → Option Action
  | .key name => keys.lookup name
  | _ => none

/-- The pager after a message. -/
def update (p : Pager) (m : Message) : Pager :=
  match m with
  | .resize width height => { p with width := width, height := windowHeight height }
  | .wheelUp => p.up wheelLines
  | .wheelDown => p.down wheelLines
  | .key _ => m.action?.elim p p.act

/-- Does the message end the pager? -/
def Message.leaves (m : Message) : Bool :=
  m.action? == some .leave

/-- The lines in the window. -/
def visible (p : Pager) : List Bytes :=
  (p.lines.drop p.offset).take p.height

/-- A fraction in hundredths. Both the fraction and its hundredfold are rounded to a number with 53
significant bits, and the result to an integer. -/
def hundredths (num den : Nat) : Nat :=
  if num == 0 then 0
  else
    match Binary64.ofFraction? num den with
    | none => 0
    | some (m, e) =>
      let (n, d) := Binary64.fraction m e
      match Binary64.ofFraction? (n * 100) d with
      | none => 0
      | some (m, e) =>
        let (n, d) := Binary64.fraction m e
        Binary64.roundDiv n d

/-- How far the listing has been scrolled, in hundredths. -/
def percent (p : Pager) : Nat :=
  if p.lines.length ≤ p.height || p.maxOffset ≤ p.offset then 100
  else hundredths p.offset p.maxOffset

/-- The line below the window. -/
def footer (p : Pager) : Bytes :=
  let n := Decimal.ofNat p.percent
  Bytes.blanks (3 - n.length) ++ n
    ++ "% | ↑/k: up | ↓/j: down | g: top | G: bottom | q: quit"

/-- The window. -/
def window (p : Pager) : List Bytes :=
  let text := Bytes.joinWith [Bytes.lf] p.visible
  Block.fit p.width.toNat p.height (Block.lines text)

/-- What the user sees. -/
def view (palette : Palette) (p : Pager) : Bytes :=
  if p.closed then []
  else
    Bytes.joinWith [Bytes.lf]
      ([Style.heading.apply palette p.title] ++ p.window ++ [Style.faint.apply palette p.footer])

end Pager

end ForthFrontend
