import ForthFrontend.Yaml.Token.Property

/-!
# The lexer

Tokens are made on demand. Whether a scalar is the key of a mapping shows only when a colon follows,
so tokens wait in a queue, and the marks of a key and of the mapping it opens are put into the queue
where the key began. A key must stand on one line and within 1024 characters; in a block, text at
the column of the block can be nothing but a key.

The columns of the open blocks are kept on a stack; text further to the left closes them. Inside
flow collections columns do not matter.

## Main definitions

* `Yaml.Lexer`: the state of the lexer.
* `Yaml.Lexer.fetch`: makes the next tokens.
* `Yaml.Lexer.peek`, `Yaml.Lexer.drop`: the next token, and the lexer behind it.
-/

namespace ForthFrontend.Yaml

/-- A place where a key may have begun: the number of its first token, and whether it can be
nothing else. -/
structure PendingKey where
  token : Nat
  mark : Mark
  required : Bool
  deriving Repr, DecidableEq, Inhabited

/-- The state of the lexer. -/
structure Lexer where
  cursor : Cursor
  /-- A limit for the steps of readers. -/
  limit : Nat
  started : Bool := false
  /-- Tokens made and not yet taken. -/
  queue : List Token := []
  /-- How many tokens were taken. -/
  taken : Nat := 0
  /-- The columns of the open blocks, innermost first. -/
  blocks : List Nat := []
  /-- The pending key of the innermost collection. -/
  key : Option PendingKey := none
  /-- The pending keys of the collections around the open flow collections, innermost first. -/
  outerKeys : List (Option PendingKey) := []
  /-- May a key begin here? -/
  keyAllowed : Bool := false
  deriving Repr, DecidableEq, Inhabited

namespace Lexer

/-- The lexer in front of a document. -/
def ofCharacters (vs : List Nat) : Lexer where
  cursor := { rest := vs }
  limit := vs.length + 4

/-- The deepest nesting of collections. -/
def maxDepth : Nat := 10000

/-- The longest key, in characters. -/
def maxKey : Nat := 1024

/-- Is the lexer inside a flow collection? -/
def inFlow (l : Lexer) : Bool :=
  !l.outerKeys.isEmpty

/-- The place of the lexer. -/
def mark (l : Lexer) : Mark :=
  l.cursor.mark

/-- The number of the next token to be made. -/
def nextNumber (l : Lexer) : Nat :=
  l.taken + l.queue.length

/-- Puts a token at the end of the queue. -/
def push (l : Lexer) (line : Nat) (shape : Token.Shape) : Lexer :=
  { l with queue := l.queue ++ [⟨shape, line⟩] }

/-- Puts a token into the queue so that it gets the given number. -/
def insert (l : Lexer) (number line : Nat) (shape : Token.Shape) : Lexer :=
  { l with queue := l.queue.insertIdx (number - l.taken) ⟨shape, line⟩ }

/-- An error of a token that began at `began`. -/
def fail {α : Type} (l : Lexer) (began : Mark) (p : Problem) : Except SyntaxError α :=
  .error (.inToken began l.mark p)

/-- Can the pending key still turn out to be a key? It is an error if it cannot but has to. -/
def isLive (l : Lexer) (k : PendingKey) : Except SyntaxError Bool :=
  if k.mark.line < l.mark.line || k.mark.index + maxKey < l.mark.index then
    if k.required then l.fail k.mark .missingColon else .ok false
  else .ok true

/-- Gives up the pending key, which is an error if it has to be a key. -/
def dropKey (l : Lexer) : Except SyntaxError Lexer :=
  match l.key with
  | some k => if k.required then l.fail k.mark .missingColon else .ok { l with key := none }
  | none => .ok l

/-- Notes that a key may begin here, if one is allowed. -/
def noteKey (l : Lexer) : Except SyntaxError Lexer :=
  if l.keyAllowed then do
    let required := !l.inFlow && l.blocks.head? == some l.mark.column
    let key : PendingKey := ⟨l.nextNumber, l.mark, required⟩
    return { ← l.dropKey with key := some key }
  else .ok l

/-- Closes the blocks that begin to the right of a column. -/
def closeBlocks (l : Lexer) (isOutside : Nat → Bool) (line : Nat) : Lexer :=
  if l.inFlow then l
  else
    let closed := l.blocks.takeWhile isOutside
    { l with
      blocks := l.blocks.drop closed.length
      queue := l.queue ++ closed.map fun _ => ⟨.blockEnd, line⟩ }

/-- Opens a block at a column, unless it is open already. -/
def openBlock (l : Lexer) (column number line : Nat) (shape : Token.Shape) :
    Except SyntaxError Lexer :=
  if l.inFlow || l.blocks.head?.any (column ≤ ·) then .ok l
  else if l.blocks.length ≥ maxDepth then
    l.fail ((l.key.map PendingKey.mark).getD {}) .tooDeep
  else .ok ({ l with blocks := column :: l.blocks }.insert number line shape)

/-- How far behind the line break at the head of a text the next comment begins, if only white space
stands between; the search is limited. -/
def nextComment? (n : Nat) : Nat → List Nat → Option Nat
  | 0, _ => none
  | fuel + 1, s =>
    match s with
    | 0x23 :: _ => some n
    | v :: rest => if isBlank v || isBreak v then nextComment? (n + 1) fuel rest else none
    | [] => none

/-- Moves on by characters and line breaks until a place. -/
def seek (index : Nat) : Nat → Cursor → Cursor
  | 0, c => c
  | fuel + 1, c =>
    if c.mark.index ≥ index then c
    else seek index fuel (if c.atBreak then c.skipBreak else c.skip)

/-- How far the lexer looks for a further comment. -/
def commentReach : Nat := 511

/-- Moves to the end of the last of the comments that follow one another. -/
def skipComments : Nat → Cursor → Cursor
  | 0, c => c
  | fuel + 1, c =>
    let c := c.toLineEnd
    match nextComment? 1 commentReach c.rest.tail with
    | some n => skipComments fuel (seek (c.mark.index + n) (n + 1) c)
    | none => c

/-- Moves past white space and comments. Tabs count as white space unless a key may begin. -/
def skipGap (inFlow : Bool) (limit : Nat) : Nat → Bool → Cursor → Bool × Cursor
  | 0, keyAllowed, c => (keyAllowed, c)
  | fuel + 1, keyAllowed, c =>
    let c := c.skipWhile fun v => v == 0x20 || ((inFlow || !keyAllowed) && v == 0x09)
    let c := if c.sees 0x23 then skipComments limit c else c
    if c.atBreak then skipGap inFlow limit fuel (keyAllowed || !inFlow) c.skipBreak
    else (keyAllowed, c)

/-- Moves past a comment on the line of the token before it. -/
def skipLineComment (c : Cursor) : Cursor :=
  let blanks := (c.rest.takeWhile isBlank).length
  if c.breaks == 0 && blanks ≤ commentReach && (c.advance blanks).sees 0x23 then c.toLineEnd else c

/-- Makes a token of `n` characters. -/
def take (l : Lexer) (n : Nat) (shape : Token.Shape) : Lexer :=
  { l.push l.mark.line shape with cursor := l.cursor.advance n }

/-- Makes a token that a reader has read. -/
def takeRead (l : Lexer) (read : Token.Shape × Cursor) : Lexer :=
  { l.push l.mark.line read.1 with cursor := read.2 }

/-- The end of the document: an unfinished line counts as a line. -/
def fetchEnd (l : Lexer) : Except SyntaxError Lexer := do
  let m := l.mark
  let l := if m.column == 0 then l
    else { l with cursor.mark := { m with column := 0, line := m.line + 1 } }
  let l ← (l.closeBlocks (fun _ => true) l.mark.line).dropKey
  return { l.push l.mark.line .streamEnd with keyAllowed := false }

/-- A directive. -/
def fetchDirective (l : Lexer) : Except SyntaxError Lexer := do
  let l ← (l.closeBlocks (fun _ => true) l.mark.line).dropKey
  let read ← readDirective l.limit l.cursor
  return { l.takeRead read with keyAllowed := false }

/-- The mark of the beginning or end of a document. -/
def fetchDocumentMark (l : Lexer) : Except SyntaxError Lexer := do
  let l ← (l.closeBlocks (fun _ => true) l.mark.line).dropKey
  let shape := if l.cursor.sees 0x2D then .documentStart else .documentEnd
  return { l.take 3 shape with keyAllowed := false }

/-- The beginning of a flow collection. -/
def fetchFlowStart (l : Lexer) (shape : Token.Shape) : Except SyntaxError Lexer := do
  let l ← l.noteKey
  let l := { l with outerKeys := l.key :: l.outerKeys, key := none }
  if l.outerKeys.length > maxDepth then l.fail l.mark .tooDeep
  else return { l.take 1 shape with keyAllowed := true }

/-- The end of a flow collection. -/
def fetchFlowEnd (l : Lexer) (shape : Token.Shape) : Except SyntaxError Lexer := do
  let l ← l.dropKey
  let l := match l.outerKeys with
    | key :: outer => { l with key := key, outerKeys := outer }
    | [] => l
  return { l.take 1 shape with keyAllowed := false }

/-- The comma of a flow collection. -/
def fetchFlowEntry (l : Lexer) : Except SyntaxError Lexer := do
  let l ← l.dropKey
  return { l.take 1 .flowEntry with keyAllowed := true }

/-- The dash of an item. -/
def fetchBlockEntry (l : Lexer) : Except SyntaxError Lexer := do
  if !l.inFlow && !l.keyAllowed then l.fail l.mark .entryNotAllowed
  else
    let l ← l.openBlock l.mark.column l.nextNumber l.mark.line .blockSequenceStart
    let l ← l.dropKey
    return { l.take 1 .blockEntry with keyAllowed := true }

/-- The question mark of a key. -/
def fetchKey (l : Lexer) : Except SyntaxError Lexer := do
  if !l.inFlow && !l.keyAllowed then l.fail l.mark .keyNotAllowed
  else
    let l ← l.openBlock l.mark.column l.nextNumber l.mark.line .blockMappingStart
    let l ← l.dropKey
    return { l.take 1 .key with keyAllowed := !l.inFlow }

/-- The pending key, if it can still turn out to be a key. -/
def liveKey (l : Lexer) : Except SyntaxError (Option PendingKey) := do
  match l.key with
  | some k => return if ← l.isLive k then some k else none
  | none => return none

/-- The colon of a value. What was pending becomes a key. -/
def fetchValue (l : Lexer) : Except SyntaxError Lexer := do
  match ← l.liveKey with
  | some k =>
    let l := l.insert k.token k.mark.line .key
    let l ← l.openBlock k.mark.column k.token k.mark.line .blockMappingStart
    return { { l with key := none }.take 1 .value with keyAllowed := false }
  | none =>
    if l.inFlow then return { l.take 1 .value with keyAllowed := false }
    else if !l.keyAllowed then l.fail l.mark .valueNotAllowed
    else
      let l ← l.openBlock l.mark.column l.nextNumber l.mark.line .blockMappingStart
      return { l.take 1 .value with keyAllowed := true }

/-- An anchor or an alias. -/
def fetchName (l : Lexer) (shape : Bytes → Token.Shape) : Except SyntaxError Lexer := do
  let l ← l.noteKey
  let (name, after) ← readName l.cursor
  return { l.takeRead (shape name, after) with keyAllowed := false }

/-- A tag. -/
def fetchTag (l : Lexer) : Except SyntaxError Lexer := do
  let l ← l.noteKey
  let read ← readTag l.limit l.cursor
  return { l.takeRead read with keyAllowed := false }

/-- The token of a scalar that was read. -/
def scalarToken (s : Scanned) (style : Style) : Token.Shape × Cursor :=
  (.scalar (encodeAll s.text.reverse) style, s.cursor)

/-- A literal or folded scalar. -/
def fetchBlockScalar (l : Lexer) (folded : Bool) : Except SyntaxError Lexer := do
  let l ← l.dropKey
  let s ← readBlock l.limit folded l.blocks.head? l.cursor
  let style := if folded then .folded else .literal
  return { l.takeRead (scalarToken s style) with keyAllowed := true }

/-- A quoted scalar. -/
def fetchQuoted (l : Lexer) (single : Bool) : Except SyntaxError Lexer := do
  let l ← l.noteKey
  let s ← readQuoted l.limit single l.cursor
  let style := if single then .single else .double
  return { l.takeRead (scalarToken s style) with keyAllowed := false }

/-- The least indentation of further lines of a plain scalar. -/
def plainIndent (l : Lexer) : Nat :=
  match l.blocks.head? with
  | some n => n + 1
  | none => 0

/-- A plain scalar. -/
def fetchPlain (l : Lexer) : Except SyntaxError Lexer := do
  let l ← l.noteKey
  let s ← readPlain l.limit l.inFlow l.plainIndent l.cursor
  return { l.takeRead (scalarToken s .plain) with keyAllowed := s.gap.multiline }

/-- The characters that a plain scalar cannot begin with, besides white space. -/
def indicators : List Nat :=
  (Bytes.ofString "-?:,[]\x7b\x7d#&*!|>'\"%@`").map UInt8.toNat

/-- Can a plain scalar begin at the cursor? -/
def atPlain (l : Lexer) : Bool :=
  match l.cursor.rest with
  | [] => false
  | v :: rest =>
    (!isBlank v && !isBreak v && !indicators.contains v)
      || (v == 0x2D && !rest.head?.any isBlank)
      || (!l.inFlow && (v == 0x3F || v == 0x3A) && !l.cursor.wordEndsAt 1)

/-- The token that begins with the character `v`, which begins no directive and no mark of a
document. -/
def fetchAt (l : Lexer) (v : Nat) : Except SyntaxError Lexer :=
  if v == 0x5B then l.fetchFlowStart .flowSequenceStart
  else if v == 0x7B then l.fetchFlowStart .flowMappingStart
  else if v == 0x5D then l.fetchFlowEnd .flowSequenceEnd
  else if v == 0x7D then l.fetchFlowEnd .flowMappingEnd
  else if v == 0x2C then l.fetchFlowEntry
  else if v == 0x2D && l.cursor.wordEndsAt 1 then l.fetchBlockEntry
  else if v == 0x3F && (l.inFlow || l.cursor.wordEndsAt 1) then l.fetchKey
  else if v == 0x3A && (l.inFlow || l.cursor.wordEndsAt 1) then l.fetchValue
  else if v == 0x2A then l.fetchName .reference
  else if v == 0x26 then l.fetchName .anchor
  else if v == 0x21 then l.fetchTag
  else if v == 0x7C && !l.inFlow then l.fetchBlockScalar false
  else if v == 0x3E && !l.inFlow then l.fetchBlockScalar true
  else if v == 0x27 then l.fetchQuoted true
  else if v == 0x22 then l.fetchQuoted false
  else if l.atPlain then l.fetchPlain
  else l.fail l.mark .noToken

/-- Moves past a comment on the line of the last token, unless that is the dash of an item. -/
def finishLine (l : Lexer) : Lexer :=
  if (l.queue.getLast?.map Token.shape) == some .blockEntry then l
  else { l with cursor := skipLineComment l.cursor }

/-- Makes the next token, and the tokens that have to stand before it. -/
def fetch (l : Lexer) : Except SyntaxError Lexer :=
  if !l.started then .ok { l.push 0 .streamStart with started := true, keyAllowed := true }
  else
    let line := l.mark.line
    let (keyAllowed, cursor) := skipGap l.inFlow l.limit l.limit l.keyAllowed l.cursor
    let l := { l with keyAllowed := keyAllowed, cursor := cursor }
    let l := l.closeBlocks (l.mark.column < ·) line
    match l.cursor.head? with
    | none => l.fetchEnd
    | some v =>
      if l.mark.column == 0 && v == 0x25 then l.fetchDirective
      else if l.cursor.atDocumentMark then l.fetchDocumentMark
      else (l.fetchAt v).map finishLine

/-- The least number of tokens that have to be in the queue before one is taken. -/
def lookahead : Nat := 3

/-- Does a key that is still possible begin at the next token to be taken? -/
def headIsPending (l : Lexer) : Except SyntaxError Bool :=
  match (l.key :: l.outerKeys).find? fun k => k.any (·.token == l.taken) with
  | some (some k) => l.isLive k
  | _ => .ok false

/-- Makes tokens until one can be taken. -/
def fill : Nat → Lexer → Except SyntaxError Lexer
  | 0, l => .ok l
  | fuel + 1, l => do
    if l.queue.length < lookahead then fill fuel (← l.fetch)
    else if ← l.headIsPending then fill fuel (← l.fetch)
    else return l

/-- The next token. -/
def peek (l : Lexer) : Except SyntaxError (Token × Lexer) := do
  let l ← l.fill l.limit
  match l.queue with
  | t :: _ => return (t, l)
  | [] => return (⟨.streamEnd, l.mark.line⟩, l)

/-- The lexer behind the next token. -/
def drop (l : Lexer) : Lexer :=
  { l with queue := l.queue.tail, taken := l.taken + 1 }

end Lexer

end ForthFrontend.Yaml
