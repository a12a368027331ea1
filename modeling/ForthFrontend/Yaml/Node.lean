import ForthFrontend.Yaml.Implicit

/-!
# Nodes

A document is a tree of scalars, sequences and mappings. A node can have an anchor, and an alias
stands for the node with a given anchor, possibly for a node that it is a part of.

## Main definitions

* `Yaml.Node`: the nodes of a document.
* `Yaml.Tree`: a document with its anchors.
-/

namespace ForthFrontend.Yaml

/-- A node with its tag and the line, counted from one, on which it begins. -/
inductive Node where
  | scalar (tag : Tag) (text : Bytes) (line : Nat)
  | sequence (tag : Tag) (items : List Node) (line : Nat)
  | mapping (tag : Tag) (entries : List (Node × Node)) (line : Nat)
  /-- The node with the anchor `name`, which is number `target` of all anchors; `ordinal` is the
  number of the alias among all aliases. -/
  | reference (name : Bytes) (ordinal target line : Nat)
  deriving Repr, Inhabited

namespace Node

/-- The line on which a node begins. -/
def line : Node → Nat
  | scalar _ _ n | sequence _ _ n | mapping _ _ n | reference _ _ _ n => n

/-- The kinds of nodes. -/
inductive Kind where
  | scalar
  | sequence
  | mapping
  | reference
  deriving Repr, DecidableEq, Inhabited

/-- The kind of a node. -/
def kind : Node → Kind
  | scalar _ _ _ => .scalar
  | sequence _ _ _ => .sequence
  | mapping _ _ _ => .mapping
  | reference _ _ _ _ => .reference

/-- What distinguishes keys: the text of a scalar, the name of an alias, nothing for collections. -/
def label : Node → Bytes
  | scalar _ text _ => text
  | reference name _ _ _ => name
  | sequence _ _ _ | mapping _ _ _ => []

end Node

/-- A document: its root and the nodes with anchors, by number. -/
structure Tree where
  root : Node
  anchors : List (Nat × Node) := []
  /-- How many aliases there are. -/
  aliases : Nat := 0
  /-- A bound for the number of nodes. -/
  size : Nat := 0
  deriving Repr, Inhabited

end ForthFrontend.Yaml
