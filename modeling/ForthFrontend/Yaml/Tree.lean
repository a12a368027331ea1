import ForthFrontend.Yaml.Node
import ForthFrontend.Yaml.Token.Lexer

/-!
# Reading documents

The tokens of a document are arranged into a tree. Every reader says which tokens it expects and
what is missing if another one comes. A missing node stands for nothing.

The depth of the readers is limited by a number of steps that the number of characters guarantees.

## Main definitions

* `Yaml.Builder`: the state between two tokens.
* `Yaml.Builder.node`: reads a node.
* `Yaml.Tree.read`: reads the first document of a text.
-/

namespace ForthFrontend.Yaml

/-- The state between two tokens. -/
structure Builder where
  lexer : Lexer
  /-- The handles of tags and what they stand for. -/
  handles : List (Bytes × Bytes) := []
  /-- The anchors so far and their numbers, latest first. -/
  names : List (Bytes × Nat) := []
  /-- The finished nodes with anchors, by number. -/
  anchors : List (Nat × Node) := []
  /-- How many aliases were read. -/
  aliases : Nat := 0
  deriving Inhabited

/-- Reading with a state, which can fail. -/
abbrev Build := StateT Builder (Except SyntaxError)

namespace Builder

/-- The next token. -/
def peek : Build Token := do
  let s ← get
  let (t, l) ← s.lexer.peek
  set { s with lexer := l }
  return t

/-- Moves past the next token. -/
def drop : Build PUnit :=
  modify fun s => { s with lexer := s.lexer.drop }

/-- Fails because of the token on line `stopped`, inside a construct that began on line `began`. -/
def fail {α : Type} (began stopped : Nat) (p : Problem) : Build α :=
  throw (.inArrangement began stopped p)

/-- A node that stands for nothing. -/
def nothing (line : Nat) : Node :=
  .scalar .null [] (line + 1)

/-- What stands before the content of a node. -/
structure Properties where
  anchor : Option Bytes := none
  /-- Handle and suffix of the tag, and the line of the tag. -/
  tag : Option (Bytes × Bytes × Nat) := none
  deriving Repr, DecidableEq, Inhabited

/-- Reads the anchor and the tag of a node, in either order. -/
def properties (t : Token) : Build Properties := do
  match t.shape with
  | .anchor name =>
    drop
    let u ← peek
    match u.shape with
    | .tag handle suffix =>
      drop
      return ⟨some name, some (handle, suffix, u.line)⟩
    | _ => return ⟨some name, none⟩
  | .tag handle suffix =>
    drop
    let u ← peek
    match u.shape with
    | .anchor name =>
      drop
      return ⟨some name, some (handle, suffix, t.line)⟩
    | _ => return ⟨none, some (handle, suffix, t.line)⟩
  | _ => return {}

/-- The name of a tag, empty if there is none. -/
def tagName (began : Nat) (p : Properties) : Build Bytes := do
  match p.tag with
  | none => return []
  | some (handle, suffix, line) =>
    if handle.isEmpty then return suffix
    else
      match (← get).handles.lookup handle with
      | some start =>
        if (start ++ suffix).isEmpty then fail began line .undefinedHandle
        else return start ++ suffix
      | none => fail began line .undefinedHandle

/-- The tag with a name, or another one if no tag is named. -/
def tagOr (name : Bytes) (default : Tag) : Tag :=
  if name.isEmpty || name == [0x21] then default else Tag.ofName name

/-- The tag of a scalar that names none. -/
def impliedTag (text : Bytes) (style : Style) : Tag :=
  if style == .plain then (meaning text).tag else .text

/-- Gives a number to an anchor. -/
def openAnchor (name : Option Bytes) : Build (Option Nat) := do
  match name with
  | none => return none
  | some name =>
    let s ← get
    let number := s.names.length
    set { s with names := (name, number) :: s.names }
    return some number

/-- Notes the node that belongs to the number of an anchor. -/
def closeAnchor (number : Option Nat) (n : Node) : Build Node := do
  match number with
  | none => return n
  | some number =>
    modify fun s => { s with anchors := (number, n) :: s.anchors }
    return n

/-- The node an alias stands for. -/
def reference (name : Bytes) (line : Nat) : Build Node := do
  let s ← get
  match s.names.lookup name with
  | none => throw ⟨0, .unknownAnchor name⟩
  | some target =>
    set { s with aliases := s.aliases + 1 }
    return .reference name s.aliases target (line + 1)

/-- Do the tokens end an item of a block, so that the item is missing? -/
def endsBlockItem : Token.Shape → Bool
  | .blockEntry | .blockEnd => true
  | _ => false

/-- Do the tokens end an item of a sequence that is indented no further than its mapping? -/
def endsIndentlessItem : Token.Shape → Bool
  | .blockEntry | .key | .value | .blockEnd => true
  | _ => false

/-- Do the tokens end a key or a value of a block? -/
def endsBlockValue : Token.Shape → Bool
  | .key | .value | .blockEnd => true
  | _ => false

/-- Do the tokens end a value in a flow sequence? -/
def endsFlowItem : Token.Shape → Bool
  | .flowEntry | .flowSequenceEnd => true
  | _ => false

/-- Do the tokens end a value in a flow mapping? -/
def endsFlowValue : Token.Shape → Bool
  | .flowEntry | .flowMappingEnd => true
  | _ => false

mutual

/-- Reads a node; `inBlock` says whether it may be a block, `indentless` whether it may be a
sequence that is indented no further than the mapping it stands in. -/
def node (fuel : Nat) (inBlock indentless : Bool) : Build Node := do
  match fuel with
  | 0 => fail 0 0 .missingContent
  | fuel + 1 =>
    let t ← peek
    match t.shape with
    | .reference name =>
      drop
      reference name t.line
    | _ =>
      let p ← properties t
      let u ← peek
      let tag ← tagName t.line p
      let number ← openAnchor p.anchor
      closeAnchor number (← content fuel inBlock indentless p.anchor.isSome tag t.line u)

/-- Reads the content of a node that began on line `began`; `u` is its first token. -/
def content (fuel : Nat) (inBlock indentless anchored : Bool) (tag : Bytes) (began : Nat)
    (u : Token) : Build Node := do
  match fuel with
  | 0 => fail 0 0 .missingContent
  | fuel + 1 =>
    let line := began + 1
    match u.shape with
    | .scalar text style =>
      drop
      return .scalar (tagOr tag (impliedTag text style)) text line
    | .flowSequenceStart =>
      drop
      return .sequence (tagOr tag .sequence) (← flowItems fuel u.line true []) line
    | .flowMappingStart =>
      drop
      return .mapping (tagOr tag .mapping) (← flowEntries fuel u.line true []) line
    | shape =>
      if indentless && shape == .blockEntry then
        return .sequence (tagOr tag .sequence) (← indentlessItems fuel []) line
      else if inBlock && shape == .blockSequenceStart then
        drop
        return .sequence (tagOr tag .sequence) (← blockItems fuel u.line []) line
      else if inBlock && shape == .blockMappingStart then
        drop
        return .mapping (tagOr tag .mapping) (← blockEntries fuel u.line []) line
      else if anchored || !tag.isEmpty then return .scalar (tagOr tag .null) [] line
      else fail began u.line .missingContent

/-- Reads the items of a block sequence behind those found so far, latest first. -/
def blockItems (fuel : Nat) (began : Nat) (found : List Node) : Build (List Node) := do
  match fuel with
  | 0 => return found.reverse
  | fuel + 1 =>
    let t ← peek
    match t.shape with
    | .blockEntry =>
      drop
      let u ← peek
      if endsBlockItem u.shape then blockItems fuel began (nothing t.line :: found)
      else
        let n ← node fuel true false
        blockItems fuel began (n :: found)
    | .blockEnd =>
      drop
      return found.reverse
    | _ => fail began t.line .missingDash

/-- Reads the items of a sequence that is indented no further than its mapping. -/
def indentlessItems (fuel : Nat) (found : List Node) : Build (List Node) := do
  match fuel with
  | 0 => return found.reverse
  | fuel + 1 =>
    let t ← peek
    match t.shape with
    | .blockEntry =>
      drop
      let u ← peek
      if endsIndentlessItem u.shape then indentlessItems fuel (nothing t.line :: found)
      else
        let n ← node fuel true false
        indentlessItems fuel (n :: found)
    | _ => return found.reverse

/-- Reads the entries of a block mapping. -/
def blockEntries (fuel : Nat) (began : Nat) (found : List (Node × Node)) :
    Build (List (Node × Node)) := do
  match fuel with
  | 0 => return found.reverse
  | fuel + 1 =>
    let t ← peek
    match t.shape with
    | .key =>
      drop
      let u ← peek
      let k ← if endsBlockValue u.shape then pure (nothing t.line) else node fuel true true
      let v ← blockValue fuel
      blockEntries fuel began ((k, v) :: found)
    | .blockEnd =>
      drop
      return found.reverse
    | _ => fail began t.line .missingKey

/-- Reads the value of an entry of a block mapping. -/
def blockValue (fuel : Nat) : Build Node := do
  match fuel with
  | 0 => fail 0 0 .missingContent
  | fuel + 1 =>
    let t ← peek
    match t.shape with
    | .value =>
      drop
      let u ← peek
      if endsBlockValue u.shape then return nothing t.line else node fuel true true
    | _ => return nothing t.line

/-- Reads the items of a flow sequence. An entry with a key is a mapping of its own. -/
def flowItems (fuel : Nat) (began : Nat) (first : Bool) (found : List Node) :
    Build (List Node) := do
  match fuel with
  | 0 => return found.reverse
  | fuel + 1 =>
    let t ← peek
    if t.shape == .flowSequenceEnd then
      drop
      return found.reverse
    else
      if !first then
        if t.shape == .flowEntry then drop else fail began t.line .missingSequenceEnd
      let t ← peek
      match t.shape with
      | .key =>
        drop
        let n ← flowPair fuel t.line
        flowItems fuel began false (n :: found)
      | .flowSequenceEnd =>
        drop
        return found.reverse
      | _ =>
        let n ← node fuel false false
        flowItems fuel began false (n :: found)

/-- Reads an entry with a key inside a flow sequence, behind the mark of the key. -/
def flowPair (fuel : Nat) (began : Nat) : Build Node := do
  match fuel with
  | 0 => fail 0 0 .missingContent
  | fuel + 1 =>
    let t ← peek
    let k ←
      if t.shape == .value || endsFlowItem t.shape then do
        drop
        pure (nothing t.line)
      else node fuel false false
    let t ← peek
    let v ←
      if t.shape == .value then do
        drop
        let u ← peek
        if endsFlowItem u.shape then pure (nothing t.line) else node fuel false false
      else pure (nothing t.line)
    return .mapping .mapping [(k, v)] (began + 1)

/-- Reads the entries of a flow mapping. -/
def flowEntries (fuel : Nat) (began : Nat) (first : Bool) (found : List (Node × Node)) :
    Build (List (Node × Node)) := do
  match fuel with
  | 0 => return found.reverse
  | fuel + 1 =>
    let t ← peek
    if t.shape == .flowMappingEnd then
      drop
      return found.reverse
    else
      if !first then
        if t.shape == .flowEntry then drop else fail began t.line .missingMappingEnd
      let t ← peek
      match t.shape with
      | .key =>
        drop
        let u ← peek
        let k ←
          if u.shape == .value || endsFlowValue u.shape then pure (nothing u.line)
          else node fuel false false
        let v ← flowValue fuel
        flowEntries fuel began false ((k, v) :: found)
      | .flowMappingEnd =>
        drop
        return found.reverse
      | _ =>
        let k ← node fuel false false
        let u ← peek
        flowEntries fuel began false ((k, nothing u.line) :: found)

/-- Reads the value of an entry of a flow mapping. -/
def flowValue (fuel : Nat) : Build Node := do
  match fuel with
  | 0 => fail 0 0 .missingContent
  | fuel + 1 =>
    let t ← peek
    if t.shape == .value then
      drop
      let u ← peek
      if endsFlowValue u.shape then return nothing u.line else node fuel false false
    else return nothing t.line

end

/-- The handles that need no directive. -/
def defaultHandles : List (Bytes × Bytes) :=
  [("!", "!"), ("!!", Tag.longStart)]

/-- Reads the directives of a document: the version at most once, and handles of tags. -/
def directives (fuel : Nat) (version : Bool) (handles : List (Bytes × Bytes)) :
    Build PUnit := do
  match fuel with
  | 0 => return
  | fuel + 1 =>
    let t ← peek
    match t.shape with
    | .version major minor =>
      if version then fail 0 t.line .duplicateVersion
      else if major != 1 || minor != 1 then fail 0 t.line .incompatibleVersion
      else
        drop
        directives fuel true handles
    | .tagHandle handle start =>
      if (handles.lookup handle).isSome then fail 0 t.line .duplicateTagDirective
      else
        drop
        directives fuel version (handles ++ [(handle, start)])
    | _ => modify fun s => { s with handles := handles ++ defaultHandles }

/-- Is there no content behind the mark of the beginning of a document? -/
def endsDocument : Token.Shape → Bool
  | .version _ _ | .tagHandle _ _ | .documentStart | .documentEnd | .streamEnd => true
  | _ => false

/-- Reads the root of the first document, if there is a document. -/
def root (fuel : Nat) : Build (Option Node) := do
  let _ ← peek
  drop
  let t ← peek
  match t.shape with
  | .streamEnd => return none
  | .version _ _ | .tagHandle _ _ | .documentStart =>
    directives fuel false []
    let t ← peek
    if t.shape != .documentStart then fail 0 t.line .missingDocumentStart
    else
      drop
      let u ← peek
      let n ← if endsDocument u.shape then pure (nothing u.line) else node fuel true false
      let _ ← peek
      return some n
  | _ =>
    directives fuel false []
    let n ← node fuel true false
    let _ ← peek
    return some n

end Builder

namespace Tree

/-- Reads the first document of a text, if there is one. -/
def read (s : Bytes) : Except SyntaxError (Option Tree) :=
  match characters s with
  | .error why => .error ⟨0, .characters why⟩
  | .ok vs =>
    let size := 4 * vs.length + 16
    match (Builder.root size).run { lexer := .ofCharacters vs } with
    | .error e => .error e
    | .ok (none, _) => .ok none
    | .ok (some root, s) =>
      .ok (some { root := root, anchors := s.anchors, aliases := s.aliases, size := size })

end Tree

end ForthFrontend.Yaml
