import ForthFrontend.Text.Cluster
import ForthFrontend.Text.Utf8

/-!
# Columns

How many columns of a terminal a text takes. There are two measures. Listings measure a cluster by
its first value that takes a column at all. Styled blocks measure a cluster by its first value and
the marks that take space, count pictographs by how they are presented, and look through escape
sequences.

## Main definitions

* `Text.columns`: the columns of a cell of a listing.
* `Text.styledColumns`: the columns of a line of a styled block.
* `Text.Piece`, `Text.pieces`: the units of which styled blocks are made.
-/

namespace ForthFrontend.Text

/-- The sum of numbers of columns. -/
def total (ns : List Nat) : Nat :=
  ns.foldl (· + ·) 0

/-- The columns of a scalar value in a listing. -/
def scalarColumns (v : Nat) : Nat :=
  if v < 0x20 || (0x7F ≤ v && v ≤ 0x9F) || v == 0xAD then 0
  else if v < 0x300 then 1
  else if Bytes.inRanges noColumn v then 0
  else if (0x27E6 ≤ v && v ≤ 0x27ED) || v == 0x2985 || v == 0x2986 then 1
  else if Bytes.inRanges wideColumns v || (0x2FFC ≤ v && v ≤ 0x2FFF) || v == 0x31EF then 2
  else 1

/-- The columns of a cluster in a listing. -/
def clusterColumns (vs : List Nat) : Nat :=
  ((vs.map scalarColumns).find? (· != 0)).getD 0

/-- Is the byte part of the parameters of a colour sequence? -/
def isParameter (b : UInt8) : Bool :=
  Bytes.isDigit b || b == 0x3B

/-- Do the parameters of a colour sequence consist of groups of one to three digits? -/
def goodParameters (s : Bytes) : Bool :=
  s.isEmpty || (s.splitOn 0x3B).all fun g => 1 ≤ g.length && g.length ≤ 3

/-- The length of the colour sequence at the beginning of a text, or zero. -/
def colourLength (s : Bytes) : Nat :=
  match s with
  | 0x1B :: 0x5B :: rest =>
    let parameters := rest.takeWhile isParameter
    match rest.drop parameters.length with
    | final :: _ =>
      if goodParameters parameters && (final == 0x6D || final == 0x7C || final == 0x4B) then
        parameters.length + 3
      else 0
    | [] => 0
  | _ => 0

/-- The text without colour sequences, behind the bytes found so far, latest first; `skip` more
bytes belong to a sequence. -/
def withoutColourInto (found : Bytes) (skip : Nat) : Bytes → Bytes
  | [] => found.reverse
  | b :: rest =>
    match skip with
    | n + 1 => withoutColourInto found n rest
    | 0 =>
      match colourLength (b :: rest) with
      | 0 => withoutColourInto (b :: found) 0 rest
      | n + 1 => withoutColourInto found n rest

/-- The text without colour sequences. -/
def withoutColour (s : Bytes) : Bytes :=
  if s.contains 0x1B then withoutColourInto [] 0 s else s

/-- The columns of a cell of a listing. -/
def columns (s : Bytes) : Nat :=
  total ((clusters (Utf8.scalars (withoutColour s))).map clusterColumns)

/-- The columns of a scalar value in a styled block. -/
def styledScalarColumns (v : Nat) : Nat :=
  match clusterClass v with
  | .control | .carriageReturn | .lineFeed | .extend | .joiner => 0
  | .regional => 2
  | .pictograph => if Bytes.inRanges emojiPresentation v then 2 else 1
  | _ =>
    if v == 0x2E3A then 3
    else if v == 0x2E3B then 4
    else if Bytes.inRanges wideColumns v then 2
    else 1

/-- The columns of the values of a cluster after the first one, on top of those so far. -/
def addColumns (first : ClusterClass) (width : Nat) (v : Nat) : Nat :=
  if first == .pictograph then
    if v == 0xFE0E then 1 else if v == 0xFE0F then 2 else width
  else if first == .regional || first == .hangulL then width
  else width + styledScalarColumns v

/-- The columns of a cluster in a styled block. -/
def styledClusterColumns (vs : List Nat) : Nat :=
  match vs with
  | [] => 0
  | v :: rest => rest.foldl (addColumns (clusterClass v)) (styledScalarColumns v)

/-- A unit of a styled block: its bytes and its columns. Escape sequences and controls take none. -/
structure Piece where
  bytes : Bytes
  width : Nat
  deriving Repr, DecidableEq, Inhabited

/-- The length of the escape sequence that follows an escape character. -/
def escapeLength (s : Bytes) : Nat :=
  match s with
  | 0x5B :: rest =>
    let parameters := (rest.takeWhile fun b => 0x20 ≤ b && b ≤ 0x3F).length
    if rest.length > parameters then parameters + 2 else parameters + 1
  | 0x5D :: rest =>
    let body := (rest.takeWhile fun b => b != 0x07 && b != 0x1B).length
    match rest.drop body with
    | 0x07 :: _ => body + 2
    | 0x1B :: 0x5C :: _ => body + 3
    | _ => body + 1
  | b :: _ => if 0x20 ≤ b && b ≤ 0x7E then 1 else 0
  | [] => 0

/-- The bytes of units. -/
def unitsBytes (us : List Utf8.Unit) : Bytes :=
  us.flatMap Utf8.Unit.bytes

/-- Is the unit a continuation byte that continues nothing? -/
def isStrayContinuation : Utf8.Unit → Bool
  | .stray b => Utf8.isContinuation b
  | .scalar _ _ => false

/-- The first piece of a text of units and the number of units it is made of, at least one. -/
def firstPiece (u : Utf8.Unit) (rest : List Utf8.Unit) : Piece × Nat :=
  let v := u.value
  if v == 0x1B then
    let n := escapeLength ((rest.takeWhile fun w => w.value < 0x80).flatMap Utf8.Unit.bytes)
    (⟨unitsBytes (u :: rest.take n), 0⟩, n + 1)
  else if v < 0x20 || v == 0x7F || isStrayContinuation u then (⟨u.bytes, 0⟩, 1)
  else if v < 0x7F then (⟨u.bytes, 1⟩, 1)
  else
    let cluster := (firstCluster v (rest.map Utf8.Unit.value)).1
    (⟨unitsBytes (u :: rest.take (cluster.length - 1)), styledClusterColumns cluster⟩,
      cluster.length)

/-- The pieces of a text of units behind those found so far, latest first. -/
def piecesInto (found : List Piece) : Nat → List Utf8.Unit → List Piece
  | 0, _ => found.reverse
  | _ + 1, [] => found.reverse
  | fuel + 1, u :: rest =>
    let (piece, n) := firstPiece u rest
    piecesInto (piece :: found) fuel (rest.drop (n - 1))

/-- The pieces of a text. -/
def pieces (s : Bytes) : List Piece :=
  let us := Utf8.units s
  piecesInto [] us.length us

/-- The columns of a line of a styled block. -/
def styledColumns (s : Bytes) : Nat :=
  total ((pieces s).map Piece.width)

end ForthFrontend.Text
