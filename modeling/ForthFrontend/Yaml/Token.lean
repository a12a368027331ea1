import ForthFrontend.Yaml.Problem

/-!
# Tokens

The tokens of a document: marks of structure, properties of nodes, and scalars.
-/

namespace ForthFrontend.Yaml

namespace Token

/-- What a token is. -/
inductive Shape where
  | streamStart
  | streamEnd
  | version (major minor : Nat)
  | tagHandle (handle start : Bytes)
  | documentStart
  | documentEnd
  | blockSequenceStart
  | blockMappingStart
  | blockEnd
  | flowSequenceStart
  | flowSequenceEnd
  | flowMappingStart
  | flowMappingEnd
  | blockEntry
  | flowEntry
  | key
  | value
  | reference (name : Bytes)
  | anchor (name : Bytes)
  | tag (handle suffix : Bytes)
  | scalar (text : Bytes) (style : Style)
  deriving Repr, DecidableEq, Inhabited

end Token

/-- A token and the line, counted from zero, on which it begins. -/
structure Token where
  shape : Token.Shape
  line : Nat
  deriving Repr, DecidableEq, Inhabited

end ForthFrontend.Yaml
