import ForthFrontend.Failure

/-!
# Tokens of a source line

A line is a run of tokens with gaps of white space between them. A token starts at the first byte
after a gap or after the token before it and is, in this order of preference, the shortest closed
`."..."`, the shortest closed `"..."`, or the longest run of bytes outside gaps. Only tab, line
feed, form feed, carriage return and space make gaps.

Words can be markers. A word that starts with a backslash ends the line; a word that starts with an
opening parenthesis turns the comment on; a word that ends with a closing parenthesis turns it off.
The check for opening comes first. Markers never become atoms, and neither do tokens inside a
comment. The comment state is carried from one line of a file to the next.

## Main definitions

* `Token.first`, `Token.split`: the tokens of a line.
* `Token.marker?`: which tokens are markers.
* `Scan.line`: the atoms of a line and the comment state after it.
-/

namespace ForthFrontend

/-- A piece of a source line with its lexical shape. -/
structure Token where
  kind : AtomKind
  text : Bytes
  deriving Repr, DecidableEq, Inhabited

namespace Token

/-- The bytes that make gaps between tokens. -/
def isGap (b : UInt8) : Bool :=
  b == 0x09 || b == 0x0A || b == 0x0C || b == 0x0D || b == 0x20

/-- How a display string opens. -/
def displayOpening : Bytes := [Bytes.dot, Bytes.quote]

/-- How a dump string opens. -/
def dumpOpening : Bytes := [Bytes.quote]

/-- If `s` begins with `opening` and a quotation mark follows, the text up to that quotation mark
and what comes after it. -/
def literal? (opening s : Bytes) : Option (Bytes × Bytes) :=
  if Bytes.startsWith s opening then
    let body := s.drop opening.length
    match body.dropWhile (· != Bytes.quote) with
    | [] => none
    | _ :: after => some (opening ++ body.takeWhile (· != Bytes.quote) ++ [Bytes.quote], after)
  else none

/-- What follows a literal is shorter than the text that begins with it. -/
theorem length_of_literal? {opening s text after : Bytes}
    (h : literal? opening s = some (text, after)) : after.length < s.length := by
  unfold literal? at h
  split at h
  · simp only at h
    split at h
    · cases h
    · rename_i b rest hrest
      obtain ⟨-, rfl⟩ := Prod.mk.inj (Option.some.inj h)
      have h1 := (List.dropWhile_suffix (l := s.drop opening.length) (· != Bytes.quote)).length_le
      rw [hrest] at h1
      simp only [List.length_cons, List.length_drop] at h1
      omega
  · cases h

/-- The token that begins with `b` outside a gap, and what comes after it. -/
def first (b : UInt8) (rest : Bytes) : Token × Bytes :=
  match literal? displayOpening (b :: rest) with
  | some (text, after) => (⟨.displayString, text⟩, after)
  | none =>
    match literal? dumpOpening (b :: rest) with
    | some (text, after) => (⟨.dumpString, text⟩, after)
    | none => (⟨.word, b :: rest.takeWhile (!isGap ·)⟩, rest.dropWhile (!isGap ·))

/-- A token takes at least one byte. -/
theorem length_first_le (b : UInt8) (rest : Bytes) : (first b rest).2.length ≤ rest.length := by
  unfold first
  split
  · rename_i h
    exact Nat.le_of_lt_succ (length_of_literal? h)
  · split
    · rename_i h
      exact Nat.le_of_lt_succ (length_of_literal? h)
    · exact (List.dropWhile_suffix _).length_le

/-- Collects the tokens of the remaining text behind those found so far, latest first. -/
def collect (found : List Token) (s : Bytes) : List Token :=
  match _h : s.dropWhile isGap with
  | [] => found.reverse
  | b :: rest => collect ((first b rest).1 :: found) (first b rest).2
termination_by s.length
decreasing_by
  have h1 := (List.dropWhile_suffix (l := s) isGap).length_le
  have h2 := length_first_le b rest
  rw [_h] at h1
  simp only [List.length_cons] at h1
  omega

/-- The tokens of a line, in order. -/
def split (line : Bytes) : List Token :=
  collect [] line

/-- What a word can mark. -/
inductive Marker where
  | lineComment
  | commentOpen
  | commentClose
  deriving Repr, DecidableEq, Inhabited

/-- What the token marks, if it is a marker. Opening a comment is looked for before closing one. -/
def marker? (t : Token) : Option Marker :=
  if t.kind == .word then
    if Bytes.startsWith t.text "\\" then some .lineComment
    else if Bytes.startsWith t.text "(" then some .commentOpen
    else if Bytes.endsWith t.text ")" then some .commentClose
    else none
  else none

/-- Is the token a word that begins like a string literal? Such a literal has no end on its
line. -/
def opensString (t : Token) : Bool :=
  t.kind == .word
    && (Bytes.startsWith t.text displayOpening || Bytes.startsWith t.text dumpOpening)

end Token

/-- What scanning a line gives: its atoms or an error, and whether a comment is open after it. -/
structure Scan where
  result : Except SourceError (List Atom)
  inComment : Bool

namespace Scan

/-- The place atoms of a line come from, and whether literals left open are refused. -/
structure Place where
  file : Path
  line : Int64
  strict : Bool

/-- Goes through the tokens of a line; `found` holds the atoms so far, latest first. -/
def tokens (place : Place) (found : List Atom) (inComment : Bool) : List Token → Scan
  | [] => ⟨.ok found.reverse, inComment⟩
  | t :: rest =>
    match t.marker? with
    | some .lineComment => ⟨.ok found.reverse, inComment⟩
    | some .commentOpen => tokens place found true rest
    | some .commentClose => tokens place found false rest
    | none =>
      if inComment then tokens place found inComment rest
      else if place.strict && t.opensString then
        ⟨.error { fault := .unterminatedString, file := place.file, line := place.line,
                  target := t.text }, inComment⟩
      else
        tokens place (⟨t.text, t.kind, place.file, place.line⟩ :: found) inComment rest

/-- Scans one line, starting inside or outside a comment. -/
def line (place : Place) (inComment : Bool) (text : Bytes) : Scan :=
  tokens place [] inComment (Token.split text)

end Scan

end ForthFrontend
