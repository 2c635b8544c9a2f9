/-!
# Nodes

A node of a dataflow graph is a component with named input and output ports.
Its `Kind` is settled once, when the node is made; the port types are opaque.
The three fields that an analysis run writes are `recursiveRoot`, `mark` and
`continuations`: everything else describes the program the graph stands for.
-/

namespace MuxFlow

/-- The component of the binary selector. -/
def muxComponent : String := "logic/mux"

/-- What a node is. Codes beyond the three known ones are kept apart. -/
inductive Kind where
  | atomic
  | compound
  | mux
  | other (code : Nat)
  deriving DecidableEq, Repr

namespace Kind

/-- The word for a kind. -/
def name : Kind → String
  | atomic => "atomic"
  | compound => "compound"
  | mux => "mux"
  | other _ => "unknown"

/-- The kind with a given code. -/
def ofCode : Nat → Kind
  | 0 => atomic
  | 1 => compound
  | 2 => mux
  | code => other code

/-- The kind of a component: the selector is a mux whatever is said of it. -/
def resolve (component : String) (isAtomic : Bool) : Kind :=
  if component = muxComponent then mux else if isAtomic then atomic else compound

end Kind

/-- The side of a node that a port is on. -/
inductive Direction where
  | none
  | input
  | output
  deriving DecidableEq, Repr

/-- The word for a direction. -/
def Direction.name : Direction → String
  | none => "none"
  | input => "input"
  | output => "output"

/-- A declared port. -/
structure Port where
  name : String
  type : String
  deriving DecidableEq, Repr

/-- The bodies a recursive call may enter; `none` when the list was never given,
which is not the same as an empty list. -/
structure RecursesTo where
  branch : Option (List String)
  deriving DecidableEq, Repr

/-- The ids of the bodies, none when the list was never given. -/
def RecursesTo.ids (r : RecursesTo) : List String := r.branch.getD []

/-- A node whose execution waits behind an operand of a mux. -/
structure Descriptor where
  /-- The node that waits. -/
  node : String
  /-- The mux port it waits behind. -/
  port : String
  /-- Why it waits; the start of a nested mux has no reason of its own. -/
  type : String := ""
  /-- Where the branches that were merged come in. -/
  branchPorts : List String := []
  deriving DecidableEq, Repr

namespace Descriptor

/-- The reason of a descriptor for a recursive call. -/
def recursion : String := "recursion"

/-- The reason of a descriptor for a branch that joins a recursive operand. -/
def branching : String := "branching"

/-- What makes two descriptors of one mux the same entry. -/
def key (d : Descriptor) : String × String := (d.node, d.port)

end Descriptor

/-- The mark of a continuation on a node. -/
inductive Mark where
  /-- The whole body of a recursive function is one. -/
  | body
  /-- The node is one, as described. -/
  | descriptor (d : Descriptor)
  deriving DecidableEq, Repr

/-- A node of a graph. -/
structure Node where
  id : String
  component : String := ""
  parent : String := ""
  kind : Kind := .atomic
  inputs : List Port := []
  outputs : List Port := []
  recursive : Bool := false
  recursiveRoot : Bool := false
  recursesTo : Option RecursesTo := none
  mark : Option Mark := none
  continuations : List Descriptor := []
  deriving DecidableEq, Repr

namespace Node

/-- The names of the input ports, as declared. -/
def inputNames (n : Node) : List String := n.inputs.map Port.name

/-- The names of the output ports, as declared. -/
def outputNames (n : Node) : List String := n.outputs.map Port.name

/-- The side a port is on; a name used on both sides counts as an input. -/
def direction (n : Node) (port : String) : Direction :=
  if port ∈ n.inputNames then .input
  else if port ∈ n.outputNames then .output
  else .none

/-- Whether a node is a binary selector. -/
def isMux (n : Node) : Bool := n.kind = .mux

/-- A node whose component is the selector is a mux. -/
def settled (n : Node) : Node :=
  if n.component = muxComponent then { n with kind := .mux } else n

@[simp] theorem settled_id (n : Node) : n.settled.id = n.id := by
  unfold settled; split <;> rfl

theorem settled_kind (n : Node) (h : n.settled.component = muxComponent) :
    n.settled.kind = .mux := by
  unfold settled at h ⊢
  split
  · rfl
  · next hn => rw [if_neg hn] at h; exact absurd h hn

end Node

end MuxFlow
