import MuxFlow.Graph.Edge

/-!
# Backward paths

A path is the list of frames that a walk against the data flow has gone through.
It is kept in data-flow order: the frame where the walk stands now comes first
and the frame it started from comes last, so a step of the walk is a `cons` and
walks that share a beginning share the tail of their lists.
-/

namespace MuxFlow

/-- A node reached by a walk, with the port it was reached through and the edge
that was followed backward; the start of a walk has no such edge. -/
structure Frame where
  node : String
  port : String
  edge : Option Edge := none
  deriving DecidableEq, Repr

namespace Frame

/-- Whether a walk began with this frame. -/
def isStart (f : Frame) : Bool := f.edge.isNone

/-- The node and the port, which is all that tells a walk that it has been here
before. -/
def place (f : Frame) : String × String := (f.node, f.port)

end Frame

/-- The frame that following an edge backward leads to. -/
def Edge.frame (e : Edge) : Frame := ⟨e.source, e.sourcePort, some e⟩

@[simp] theorem Edge.frame_place (e : Edge) : e.frame.place = e.origin := rfl

/-- The frames of a walk in data-flow order. -/
abbrev Path := List Frame

namespace Path

/-- The frame that the walk started from. -/
def start? (p : Path) : Option Frame := p.getLast?

/-- The frame where the walk stopped. -/
def terminal? (p : Path) : Option Frame := p.head?

/-- The `n` frames nearest to the start; the whole path when it has no more than
`n` frames, and also when `n` is not positive. -/
def suffix (p : Path) (n : Int) : Path :=
  if n ≤ 0 then p else p.drop (p.length - n.toNat)

/-- The frames from the start outward. -/
def outward (p : Path) : Path := p.reverse

/-- The ids of the nodes, in path order. -/
def nodes (p : Path) : List String := p.map Frame.node

/-- The places of the frames, in path order. -/
def places (p : Path) : List (String × String) := p.map Frame.place

@[simp] theorem places_nil : places [] = [] := rfl

@[simp] theorem places_cons (f : Frame) (p : Path) :
    places (f :: p) = f.place :: places p := rfl

end Path

end MuxFlow
