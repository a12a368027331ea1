import ForthFrontend.Yaml.Token
import ForthFrontend.Yaml.Token.Text

/-!
# Reading names, tags and directives

Anchors and aliases have names of ASCII letters, digits, dashes and underscores. A tag is a handle
and a suffix, or stands between angle brackets. Directives stand before a document: the version of
the language, and handles for tags.

## Main definitions

* `Yaml.readName`: the name of an anchor or alias.
* `Yaml.readTag`: the tag of a node.
* `Yaml.readDirective`: a directive.
-/

namespace ForthFrontend.Yaml

/-- The UTF-8 bytes of characters. -/
def encodeAll (vs : List Nat) : Bytes :=
  vs.flatMap Utf8.encode

/-- The characters of names. -/
def isNameCharacter (v : Nat) : Bool :=
  (0x30 ≤ v && v ≤ 0x39) || (0x41 ≤ v && v ≤ 0x5A) || (0x61 ≤ v && v ≤ 0x7A) ||
    v == 0x5F || v == 0x2D

/-- Reads the characters that satisfy `p`. -/
def takeWhile (p : Nat → Bool) (c : Cursor) : List Nat × Cursor :=
  (c.rest.takeWhile p, c.skipWhile p)

/-- The characters that may follow the name of an anchor or alias, besides white space. -/
def nameStops : List Nat :=
  (Bytes.ofString "?:,]\x7d%@`").map UInt8.toNat

/-- Reads the name of an anchor or alias behind its indicator. -/
def readName (c : Cursor) : Except SyntaxError (Bytes × Cursor) :=
  let (name, after) := takeWhile isNameCharacter c.skip
  if name.isEmpty || !(after.wordEndsAt 0 || after.head?.any nameStops.contains) then
    .error (.inToken c.mark after.mark .badName)
  else .ok (encodeAll name, after)

/-- The characters of tags besides those of names. -/
def uriCharacters : List Nat :=
  (Bytes.ofString ";/?:@&=+$,.!~*'()[]%").map UInt8.toNat

/-- The byte of an escape at the cursor. -/
def uriOctet? (c : Cursor) : Option Nat :=
  match c.rest with
  | 0x25 :: a :: b :: _ => do return (← hexValue? a) * 16 + (← hexValue? b)
  | _ => none

/-- Reads `n` further bytes of an escaped character. -/
def uriTail (began : Mark) : Nat → Bytes → Cursor → Except SyntaxError (Bytes × Cursor)
  | 0, text, c => .ok (text, c)
  | n + 1, text, c =>
    match uriOctet? c with
    | none => .error (.inToken began c.mark .uriOctet)
    | some v =>
      if v / 64 == 2 then uriTail began n (text ++ [v.toUInt8]) (c.advance 3)
      else .error (.inToken began c.mark .uriTrailingOctet)

/-- Reads an escaped character of a tag. -/
def uriEscape (began : Mark) (text : Bytes) (c : Cursor) : Except SyntaxError (Bytes × Cursor) :=
  match uriOctet? c with
  | none => .error (.inToken began c.mark .uriOctet)
  | some v =>
    match announced v.toUInt8 with
    | none => .error (.inToken began c.mark .uriLeadingOctet)
    | some width => uriTail began (width - 1) (text ++ [v.toUInt8]) (c.advance 3)

/-- Reads the characters of a tag behind those found so far. -/
def uriCharactersOf (began : Mark) : Nat → Bytes → Cursor → Except SyntaxError (Bytes × Cursor)
  | 0, text, c => .ok (text, c)
  | fuel + 1, text, c =>
    match c.head? with
    | none => .ok (text, c)
    | some v =>
      if v == 0x25 then
        match uriEscape began text c with
        | .error e => .error e
        | .ok (text, after) => uriCharactersOf began fuel text after
      else if isNameCharacter v || uriCharacters.contains v then
        uriCharactersOf began fuel (text ++ Utf8.encode v) c.skip
      else .ok (text, c)

/-- Reads a tag or a part of one behind what was read as a handle. -/
def readUri (limit : Nat) (began : Mark) (head : Bytes) (c : Cursor) :
    Except SyntaxError (Bytes × Cursor) :=
  match uriCharactersOf began limit (head.drop 1) c with
  | .error e => .error e
  | .ok (text, after) =>
    if head.isEmpty && after.mark.index == c.mark.index then
      .error (.inToken began after.mark .tagUri)
    else .ok (text, after)

/-- Reads a handle: an exclamation mark, a name, and perhaps another exclamation mark. A directive
needs the second one behind a name. -/
def readHandle (directive : Bool) (began : Mark) (c : Cursor) :
    Except SyntaxError (Bytes × Cursor) :=
  if !c.sees 0x21 then .error (.inToken began c.mark .tagMark)
  else
    let (name, after) := takeWhile isNameCharacter c.skip
    if after.sees 0x21 then .ok (0x21 :: encodeAll name ++ [0x21], after.skip)
    else if directive && !name.isEmpty then .error (.inToken began after.mark .tagMark)
    else .ok (0x21 :: encodeAll name, after)

/-- Is the text a handle with two exclamation marks? -/
def isFullHandle (s : Bytes) : Bool :=
  s.length > 1 && s.getLast? == some 0x21

/-- Reads a tag: its handle, empty for one in angle brackets, and its suffix. -/
def tagParts (limit : Nat) (c : Cursor) : Except SyntaxError (Bytes × Bytes × Cursor) := do
  let began := c.mark
  if c.rest.tail.head? == some 0x3C then
    let (suffix, after) ← readUri limit began [] (c.advance 2)
    if after.sees 0x3E then return ([], suffix, after.skip)
    else throw (.inToken began after.mark .tagClose)
  else
    let (handle, after) ← readHandle false began c
    if isFullHandle handle then
      let (suffix, after) ← readUri limit began [] after
      return (handle, suffix, after)
    else
      let (suffix, after) ← readUri limit began handle after
      if suffix.isEmpty then return ([], [0x21], after) else return ([0x21], suffix, after)

/-- Reads the tag of a node. -/
def readTag (limit : Nat) (c : Cursor) : Except SyntaxError (Token.Shape × Cursor) := do
  let (handle, suffix, after) ← tagParts limit c
  if after.wordEndsAt 0 then return (.tag handle suffix, after)
  else throw (.inToken c.mark after.mark .tagEnd)

/-- Reads a number of the version of the language. -/
def versionNumber (began : Mark) (c : Cursor) : Except SyntaxError (Nat × Cursor) :=
  let (digits, after) := takeWhile (fun v => 0x30 ≤ v && v ≤ 0x39) c
  if digits.isEmpty then .error (.inToken began after.mark .versionNumber)
  else if digits.length > 2 then .error (.inToken began after.mark .longVersionNumber)
  else .ok (digits.foldl (fun n v => n * 10 + (v - 0x30)) 0, after)

/-- Reads the version of the language. -/
def versionDirective (began : Mark) (c : Cursor) : Except SyntaxError (Token.Shape × Cursor) := do
  let (major, c) ← versionNumber began (c.skipWhile isBlank)
  if !c.sees 0x2E then throw (.inToken began c.mark .versionDot)
  let (minor, c) ← versionNumber began c.skip
  return (.version major minor, c)

/-- Reads a handle for tags and what it stands for. -/
def tagDirective (limit : Nat) (began : Mark) (c : Cursor) :
    Except SyntaxError (Token.Shape × Cursor) := do
  let (handle, c) ← readHandle true began (c.skipWhile isBlank)
  if !c.atBlank then throw (.inToken began c.mark .tagBlank)
  let (start, c) ← readUri limit began [] (c.skipWhile isBlank)
  if !c.wordEndsAt 0 then throw (.inToken began c.mark .tagEnd)
  return (.tagHandle handle start, c)

/-- Reads a directive and the rest of its line. -/
def readDirective (limit : Nat) (c : Cursor) : Except SyntaxError (Token.Shape × Cursor) := do
  let began := c.mark
  let (name, c) := takeWhile isNameCharacter c.skip
  if name.isEmpty then throw (.inToken began c.mark .directiveName)
  if !c.wordEndsAt 0 then throw (.inToken began c.mark .directiveNameEnd)
  let (shape, c) ←
    if encodeAll name == Bytes.ofString "YAML" then versionDirective began c
    else if encodeAll name == Bytes.ofString "TAG" then tagDirective limit began c
    else throw (.inToken began c.mark .unknownDirective)
  let c := c.skipWhile isBlank
  let c := if c.sees 0x23 then c.toLineEnd else c
  if !c.atLineEnd then throw (.inToken began c.mark .directiveEnd)
  return (shape, c.skipBreak)

end ForthFrontend.Yaml
