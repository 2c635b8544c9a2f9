import MuxFlow.Distinct
import MuxFlow.Walk.Path
import MuxFlow.Graph.Node

/-!
# Branches that join a recursive operand

Of the paths behind one port of a mux, some lead to a recursive call and some do
not. Where a plain path leaves the part of the graph that lies in front of a
recursive call, its value joins one that has to be waited for, and the node
where they meet becomes a continuation. All paths are read from the mux outward
here.
-/

namespace MuxFlow.Branching

/-- The frames in front of the nearest of the given nodes; none when the path,
its start left out, meets none of them. -/
def segment? (recursive : List String) (p : Path) : Option (List Frame) :=
  match p.outward with
  | [] => none
  | s :: fs =>
    if fs.any fun f => f.node ∈ recursive then
      some (s :: fs.takeWhile fun f => f.node ∉ recursive)
    else none

/-- How many leading frames of two lists are at the same nodes. -/
def sharedLength : List Frame → List Frame → Nat
  | a :: as, b :: bs => if a.node = b.node then sharedLength as bs + 1 else 0
  | _, _ => 0

/-- How far a path goes along with any of the given segments. -/
def longestShared (segments : List (List Frame)) (fs : List Frame) : Nat :=
  segments.foldl (fun best r => max best (sharedLength fs r)) 0

/-- The edge on which a path leaves all segments, with the frame it leads to. -/
def departure? (segments : List (List Frame)) (fs : List Frame) : Option (Frame × Edge) := do
  let f ← fs[longestShared segments fs]?
  let e ← f.edge
  some (f, e)

/-- The descriptors for the nodes that edges lead into, one for each node, with
the ports they come in at. -/
def join (port : String) (edges : List Edge) : List Descriptor :=
  (distinct (edges.map Edge.target)).map fun v =>
    { node := v, port, type := Descriptor.branching
      branchPorts := distinct ((edges.filter fun e => e.target = v).map Edge.targetPort) }

/-- The nodes where plain paths join paths to the given recursive calls. -/
def points (paths : List Path) (recursions : List Frame) (port : String) :
    List Descriptor :=
  let recursive := recursions.map Frame.node
  let segments := paths.filterMap (segment? recursive)
  if segments.isEmpty then []
  else
    let plain := (paths.filter fun p => (segment? recursive p).isNone).map Path.outward
    let leaving := distinctBy (fun d => d.1.place) (plain.filterMap (departure? segments))
    join port (leaving.map Prod.snd)

end MuxFlow.Branching
