import MuxFlow.Yaml.Node

/-!
# YAML documents as they are written

In a document, a node that has an anchor is written once, and aliases point to it.
A `Serial` is a node in this form, and a `SerialTree` is a document: its node and
the nodes that have anchors, which are parts of it. An alias may point to a node
that it stands in.

`SerialTree.node` puts the anchored nodes in the places of their aliases. It goes on
inside of what it has put there, so the places where it has to stop are those where
an alias points to a node that is just being put in.
-/

namespace MuxFlow.Yaml

/-- A node of a document. -/
inductive Serial where
  | scalar (tag : String) (text : String)
  | sequence (items : List Serial)
  | mapping (entries : List (Serial × Serial))
  /-- The node with the anchor of a number. -/
  | aliasOf (name : String) (anchor : Nat)
  deriving Inhabited

namespace Serial

mutual

/-- The node with targets in the places of its aliases. -/
def fill (target : Nat → Option Node) : Serial → Node
  | scalar tag s => .scalar tag s
  | sequence items => .sequence (fillItems target items)
  | mapping entries => .mapping (fillEntries target entries)
  | aliasOf name k => .aliasOf name (target k)

/-- The items with targets in the places of their aliases. -/
def fillItems (target : Nat → Option Node) : List Serial → List Node
  | [] => []
  | n :: ns => fill target n :: fillItems target ns

/-- The entries with targets in the places of their aliases. -/
def fillEntries (target : Nat → Option Node) : List (Serial × Serial) → List (Node × Node)
  | [] => []
  | (k, n) :: es => (fill target k, fill target n) :: fillEntries target es

end

end Serial

/-- A document. -/
structure SerialTree where
  root : Serial
  /-- The nodes that have anchors, in the order of the anchors. -/
  anchored : List Serial

namespace SerialTree

/-- The node that has an anchor; a number that no anchor has stands for nothing. -/
def target (t : SerialTree) (k : Nat) : Serial := t.anchored.getD k (.scalar "!!null" "")

/-- What is put in the place of an alias while the nodes with the given anchors are being
put in: nothing if its own is one of them. At most `fuel` are put into one another. -/
def within (t : SerialTree) : Nat → List Nat → Nat → Option Node
  | 0, _, _ => none
  | fuel + 1, opened, k =>
    if k ∈ opened then none
    else some ((t.target k).fill (t.within fuel (k :: opened)))

/-- The node of a document, without references. Nothing is put into itself, so the number
of anchors bounds the depth. -/
def node (t : SerialTree) : Node := t.root.fill (t.within (t.anchored.length + 1) [])

end SerialTree

end MuxFlow.Yaml
