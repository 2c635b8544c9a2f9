import MuxFlow.Graph.Builder
import MuxFlow.Text.Quoted

/-!
# Graphs

A `Graph` is a finished builder: both ends of every edge are nodes. It is never
changed; what looks like an index (`node?`, `index?`, `inEdges`, `children`) is
a view of the two lists.
-/

namespace MuxFlow

/-- A dataflow graph. -/
structure Graph extends Builder where
  closed : ∀ e ∈ edges, toBuilder.hasNode e.source ∧ toBuilder.hasNode e.target

/-- Every end of every edge is a node when no end dangles. -/
theorem Builder.closed_of_danglingEnds (b : Builder) (h : b.danglingEnds = []) :
    ∀ e ∈ b.edges, b.hasNode e.source ∧ b.hasNode e.target := by
  intro e he
  have h0 : b.danglingOf e = [] := List.flatMap_eq_nil_iff.1 h e he
  have h1 : ∀ id ∈ [e.source, e.target], b.hasNode id = true := by
    simpa [danglingOf, List.filter_eq_nil_iff] using h0
  exact ⟨h1 _ (by simp), h1 _ (by simp)⟩

/-- Finishes a graph; refuses edges that lead nowhere. -/
def Builder.build (b : Builder) : Except Fault Graph :=
  match h : b.danglingEnds with
  | [] => .ok { b with closed := b.closed_of_danglingEnds h }
  | d :: ds => .error (.dangling (d :: ds))

/-- Finishes a graph in place. The graph takes along all that the builder holds; a
builder whose edges lead nowhere is left as it is. -/
def Builder.finish (b : Builder) : Except Fault Graph × Builder :=
  match b.build with
  | .ok g => (.ok g, empty)
  | .error f => (.error f, b)

namespace Graph

/-- The graph with nothing in it. -/
def empty : Graph := { Builder.empty with closed := by simp [Builder.empty] }

/-- The trouble with an id that names no node. -/
def nodeNotFound (phase : Phase) (id : String) : Fault :=
  .trouble
    { phase, kind := .notFound, node := id, detail := "node " ++ Text.quote id ++ " not found" }

/-- The trouble with a port that the node does not declare. -/
def portNotFound (phase : Phase) (node port : String) : Fault :=
  .trouble
    { phase, kind := .notFound, node, port
      detail := "port " ++ Text.quote port ++ " is not declared" }

variable (g : Graph)

/-- The node with an id. -/
def node? (id : String) : Option Node := g.nodes.find? fun n => n.id = id

/-- The node with an id, or the trouble of there being none. -/
def node (id : String) : Except Fault Node :=
  match g.node? id with
  | some n => .ok n
  | none => .error (nodeNotFound .walk id)

/-- The position of a node in the order of insertion. -/
def index? (id : String) : Option Nat := g.nodes.findIdx? fun n => n.id = id

/-- The number of nodes. -/
def size : Nat := g.nodes.length

/-- The ids of all muxes, in order. -/
def muxes : List String := (g.nodes.filter Node.isMux).map Node.id

/-- The id of the node around a node; empty for none. -/
def parent (id : String) : String := ((g.node? id).map Node.parent).getD ""

/-- The ids of the nodes directly inside a node. -/
def children (id : String) : List String :=
  if id = "" then [] else (g.nodes.filter fun n => n.parent = id).map Node.id

/-- The edge with a name. -/
def edge? (name : String) : Option Edge := g.edges.find? fun e => e.name = name

/-- The edges that arrive at a port, in order. -/
def inEdges (node port : String) : List Edge :=
  g.edges.filter fun e => e.target = node ∧ e.targetPort = port

end Graph

end MuxFlow
