import ForthFrontend.Yaml.Token.Cursor

/-!
# Reading the text of scalars

A plain or quoted scalar can go on over several lines. Blanks around a line break do not count, a
single line break stands for a space, and of several line breaks all but the first are kept. The
lines of a block scalar are kept as they are in the literal style; the folded style joins
neighbouring lines that are not indented further.

Every reader is given a limit of its steps; the number of remaining characters and one more are
enough.

## Main definitions

* `Yaml.Gap`: what stands between two pieces of a scalar.
* `Yaml.Scanned`: the text of a scalar and the cursor behind it.
* `Yaml.readPlain`, `Yaml.readQuoted`, `Yaml.readBlock`: the readers of the three kinds of scalars.
-/

namespace ForthFrontend.Yaml

/-- What stands between two pieces of a scalar. -/
structure Gap where
  /-- Blanks on the line of the first piece. -/
  blanks : List Nat := []
  /-- The first line break. -/
  first : List Nat := []
  /-- Further line breaks. -/
  more : List Nat := []
  /-- Does the gap go on over the end of the line? -/
  multiline : Bool := false
  deriving Repr, DecidableEq, Inhabited

/-- What a gap stands for. -/
def Gap.text (g : Gap) : List Nat :=
  if !g.multiline then g.blanks
  else if g.first.head? == some 0x0A then (if g.more.isEmpty then [0x20] else g.more)
  else g.first ++ g.more

/-- The text of a scalar, latest character first, the gap after it, and the cursor behind both. -/
structure Scanned where
  text : List Nat := []
  gap : Gap := {}
  cursor : Cursor
  deriving Repr, DecidableEq, Inhabited

/-- Puts `piece` behind a text that is kept latest character first. -/
def pushAll (text piece : List Nat) : List Nat :=
  piece.reverse ++ text

/-- Reads blanks and line breaks. A tab before the column `indent` of a further line is refused;
`began` is the place where the scalar began. -/
def readGap (began : Mark) (indent : Nat) :
    Nat → Gap → Cursor → Except SyntaxError (Gap × Cursor)
  | 0, g, c => .ok (g, c)
  | fuel + 1, g, c =>
    if c.atBlank then
      if g.multiline && c.mark.column < indent && c.sees 0x09 then
        .error (.inToken began c.mark .tabViolation)
      else if g.multiline then readGap began indent fuel g c.skip
      else readGap began indent fuel { g with blanks := g.blanks ++ c.rest.take 1 } c.skip
    else if c.atBreak then
      let (text, after) := c.takeBreak
      if g.multiline then readGap began indent fuel { g with more := g.more ++ text } after
      else
        readGap began indent fuel { g with blanks := [], first := text, multiline := true } after
    else .ok (g, c)

/-- The characters that end a plain scalar inside a flow collection. -/
def endsFlowPlain (v : Nat) : Bool :=
  [0x2C, 0x3F, 0x5B, 0x5D, 0x7B, 0x7D].contains v

/-- How many characters of a line belong to a plain scalar: up to a blank, a line break, a colon
that ends a word, or an indicator of the flow collection it stands in. -/
def plainLength (inFlow : Bool) (n : Nat) : List Nat → Nat
  | [] => n
  | v :: rest =>
    if isBlank v || isBreak v || (inFlow && endsFlowPlain v)
        || (v == 0x3A && rest.head?.all fun w => isBlank w || isBreak w) then n
    else plainLength inFlow (n + 1) rest

/-- Reads the pieces of a plain scalar. -/
def plainPieces (limit : Nat) (began : Mark) (inFlow : Bool) (indent : Nat) :
    Nat → Scanned → Except SyntaxError Scanned
  | 0, s => .ok s
  | fuel + 1, s =>
    if s.cursor.atDocumentMark || s.cursor.sees 0x23 then .ok s
    else
      let n := plainLength inFlow 0 s.cursor.rest
      let s : Scanned :=
        if n == 0 then s
        else
          { text := pushAll (pushAll s.text s.gap.text) (s.cursor.rest.take n)
            gap := {}
            cursor := s.cursor.advance n }
      if !(s.cursor.atBlank || s.cursor.atBreak) then .ok s
      else
        match readGap began indent limit s.gap s.cursor with
        | .error e => .error e
        | .ok (gap, cursor) =>
          let s : Scanned := { s with gap := gap, cursor := cursor }
          if !inFlow && cursor.mark.column < indent then .ok s
          else plainPieces limit began inFlow indent fuel s

/-- Reads a plain scalar whose further lines are indented by `indent` columns at least. -/
def readPlain (limit : Nat) (inFlow : Bool) (indent : Nat) (c : Cursor) :
    Except SyntaxError Scanned :=
  plainPieces limit c.mark inFlow indent limit { cursor := c }

/-- The escapes of one letter. -/
def letterEscapes : List (Nat × Nat) := [
  (0x30, 0x00), (0x61, 0x07), (0x62, 0x08), (0x74, 0x09), (0x09, 0x09), (0x6E, 0x0A), (0x76, 0x0B),
  (0x66, 0x0C), (0x72, 0x0D), (0x65, 0x1B), (0x20, 0x20), (0x22, 0x22), (0x27, 0x27), (0x5C, 0x5C),
  (0x4E, 0x85), (0x5F, 0xA0), (0x4C, 0x2028), (0x50, 0x2029)]

/-- How many hexadecimal digits follow the letter of an escape. -/
def escapeWidth? (letter : Nat) : Option Nat :=
  [(0x78, 2), (0x75, 4), (0x55, 8)].lookup letter

/-- The value of a hexadecimal digit. -/
def hexValue? (v : Nat) : Option Nat :=
  if v < 0x80 then (Decimal.digitValue? v.toUInt8).filter (· < 16) else none

/-- The value of exactly `width` hexadecimal digits at the beginning of a text. -/
def hexNumber? (width : Nat) (s : List Nat) : Option Nat :=
  if s.length < width then none
  else (s.take width).foldl (fun n v => do return (← n) * 16 + (← hexValue? v)) (some 0)

/-- Reads the escape at the cursor: the character it stands for, and the cursor behind it. -/
def readEscape (began : Mark) (c : Cursor) : Except SyntaxError (Nat × Cursor) :=
  match c.rest.tail.head? with
  | none => .error (.inToken began c.mark .unknownEscape)
  | some letter =>
    match letterEscapes.lookup letter, escapeWidth? letter with
    | some v, _ => .ok (v, c.advance 2)
    | none, none => .error (.inToken began c.mark .unknownEscape)
    | none, some width =>
      match hexNumber? width (c.rest.drop 2) with
      | none => .error (.inToken began c.mark .hexDigits)
      | some v =>
        if isNoScalar v then .error (.inToken began c.mark .escapedCharacter)
        else .ok (v, c.advance (2 + width))

/-- Reads a piece of a quoted scalar without blanks. An escaped line break ends the piece and makes
the gap after it go on over the end of the line. -/
def quotedPiece (began : Mark) (single : Bool) : Nat → Scanned → Except SyntaxError Scanned
  | 0, s => .ok s
  | fuel + 1, s =>
    let c := s.cursor
    match c.rest with
    | [] => .ok s
    | v :: rest =>
      if isBlank v || isBreak v then .ok s
      else if single && v == 0x27 then
        if rest.head? == some 0x27 then
          quotedPiece began single fuel { s with text := 0x27 :: s.text, cursor := c.advance 2 }
        else .ok s
      else if !single && v == 0x22 then .ok s
      else if !single && v == 0x5C then
        if rest.head?.any isBreak then
          .ok { s with gap := { multiline := true }, cursor := c.skip.skipBreak }
        else
          match readEscape began c with
          | .error e => .error e
          | .ok (w, after) =>
            quotedPiece began single fuel { s with text := w :: s.text, cursor := after }
      else quotedPiece began single fuel { s with text := v :: s.text, cursor := c.skip }

/-- Reads the pieces of a quoted scalar up to its closing quote. -/
def quotedPieces (limit : Nat) (began : Mark) (single : Bool) :
    Nat → Scanned → Except SyntaxError Scanned
  | 0, s => .ok s
  | fuel + 1, s =>
    if s.cursor.atDocumentMark then .error (.inToken began s.cursor.mark .documentMark)
    else if s.cursor.rest.isEmpty then .error (.inToken began s.cursor.mark .unexpectedEnd)
    else
      match quotedPiece began single limit s with
      | .error e => .error e
      | .ok s =>
        if s.cursor.sees (if single then 0x27 else 0x22) then .ok { s with cursor := s.cursor.skip }
        else
          match readGap began 0 limit s.gap s.cursor with
          | .error e => .error e
          | .ok (gap, cursor) =>
            quotedPieces limit began single fuel
              { text := pushAll s.text gap.text, gap := {}, cursor := cursor }

/-- Reads a quoted scalar. -/
def readQuoted (limit : Nat) (single : Bool) (c : Cursor) : Except SyntaxError Scanned :=
  quotedPieces limit c.mark single limit { cursor := c.skip }

/-- What happens to line breaks at the end of a block scalar. -/
inductive Chomp where
  /-- All are dropped. -/
  | strip
  /-- The first one is kept. -/
  | clip
  /-- All are kept. -/
  | keep
  deriving Repr, DecidableEq, Inhabited

/-- The first line of a block scalar. -/
structure BlockHeader where
  chomp : Chomp := .clip
  /-- The explicit indentation, zero if there is none. -/
  increment : Nat := 0
  deriving Repr, DecidableEq, Inhabited

/-- The indicator of what happens to line breaks at the end, if it is at the cursor. -/
def readChomp (c : Cursor) : Option Chomp :=
  if c.sees 0x2B then some .keep else if c.sees 0x2D then some .strip else none

/-- The explicit indentation, if it is at the cursor. -/
def readIncrement (began : Mark) (c : Cursor) : Except SyntaxError (Option Nat) :=
  match c.head? with
  | some v =>
    if v == 0x30 then .error (.inToken began c.mark .zeroIndent)
    else if 0x31 ≤ v && v ≤ 0x39 then .ok (some (v - 0x30))
    else .ok none
  | none => .ok none

/-- Reads the indicators of a block scalar, which come in either order. -/
def readIndicators (began : Mark) (c : Cursor) : Except SyntaxError (BlockHeader × Cursor) :=
  match readChomp c with
  | some chomp =>
    match readIncrement began c.skip with
    | .error e => .error e
    | .ok none => .ok (⟨chomp, 0⟩, c.skip)
    | .ok (some n) => .ok (⟨chomp, n⟩, c.skip.skip)
  | none =>
    match readIncrement began c with
    | .error e => .error e
    | .ok none => .ok ({}, c)
    | .ok (some n) =>
      match readChomp c.skip with
      | some chomp => .ok (⟨chomp, n⟩, c.skip.skip)
      | none => .ok (⟨.clip, n⟩, c.skip)

/-- Reads the rest of the first line of a block scalar. -/
def finishHeader (began : Mark) (c : Cursor) : Except SyntaxError Cursor :=
  let c := c.skipWhile isBlank
  let c := if c.sees 0x23 then c.toLineEnd else c
  if c.atLineEnd then .ok c.skipBreak else .error (.inToken began c.mark .headerEnd)

/-- Empty lines of a block scalar: their line breaks, the widest indentation among them and the line
after them, and the cursor behind that indentation. -/
structure Blanks where
  breaks : List Nat := []
  widest : Nat := 0
  cursor : Cursor
  deriving Repr, DecidableEq, Inhabited

/-- Reads empty lines and the indentation of the line after them. The indentation ends at the
column `indent`, unless that is zero. -/
def readBlanks (began : Mark) (indent : Nat) : Nat → Blanks → Except SyntaxError Blanks
  | 0, b => .ok b
  | fuel + 1, b =>
    let spaces := (b.cursor.rest.takeWhile (· == 0x20)).length
    let n := if indent == 0 then spaces else min spaces (indent - b.cursor.mark.column)
    let c := b.cursor.advance n
    let b := { b with cursor := c, widest := max b.widest c.mark.column }
    if (indent == 0 || c.mark.column < indent) && c.sees 0x09 then
      .error (.inToken began c.mark .tabIndent)
    else if c.atBreak then
      let (text, after) := c.takeBreak
      readBlanks began indent fuel { b with breaks := b.breaks ++ text, cursor := after }
    else .ok b

/-- What is known between two lines of a block scalar: its text, latest character first, the line
break after the last line, the line breaks of empty lines after it, and was that line indented? -/
structure BlockState where
  text : List Nat := []
  first : List Nat := []
  more : List Nat := []
  indented : Bool := false
  cursor : Cursor
  deriving Repr, DecidableEq, Inhabited

/-- What stands between the last line of a block scalar and the line at the cursor. -/
def BlockState.join (folded : Bool) (s : BlockState) : List Nat :=
  if folded && !s.indented && !s.cursor.atBlank && s.first.head? == some 0x0A then
    (if s.more.isEmpty then [0x20] else s.more)
  else s.first ++ s.more

/-- Reads the lines of a block scalar. -/
def blockLines (limit : Nat) (began : Mark) (folded : Bool) (indent : Nat) :
    Nat → BlockState → Except SyntaxError BlockState
  | 0, s => .ok s
  | fuel + 1, s =>
    if s.cursor.mark.column != indent || s.cursor.rest.isEmpty then .ok s
    else
      let line := s.cursor.rest.takeWhile (!isBreak ·)
      let (first, after) := (s.cursor.advance line.length).takeBreak
      match readBlanks began indent limit { cursor := after } with
      | .error e => .error e
      | .ok blanks =>
        blockLines limit began folded indent fuel
          { text := pushAll (pushAll s.text (s.join folded)) line
            first := first
            more := blanks.breaks
            indented := s.cursor.atBlank
            cursor := blanks.cursor }

/-- The text of a block scalar with what remains of the line breaks at its end. -/
def BlockState.finish (chomp : Chomp) (s : BlockState) : List Nat :=
  match chomp with
  | .strip => s.text
  | .clip => pushAll s.text s.first
  | .keep => pushAll s.text (s.first ++ s.more)

/-- Reads a block scalar inside a block indented by `indent?` columns. -/
def readBlock (limit : Nat) (folded : Bool) (indent? : Option Nat) (c : Cursor) :
    Except SyntaxError Scanned := do
  let began := c.mark
  let (header, c) ← readIndicators began c.skip
  let c ← finishHeader began c
  let given := if header.increment == 0 then 0 else indent?.getD 0 + header.increment
  let blanks ← readBlanks began given limit { cursor := c }
  let least := match indent? with
    | some n => n + 1
    | none => 1
  let indent := if given == 0 then max blanks.widest (max least 1) else given
  let s ← blockLines limit began folded indent limit
    { more := blanks.breaks, cursor := blanks.cursor }
  return { text := s.finish header.chomp, cursor := s.cursor }

end ForthFrontend.Yaml
