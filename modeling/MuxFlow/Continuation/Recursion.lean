import MuxFlow.Distinct
import MuxFlow.Walk.Path
import MuxFlow.Graph.Basic

/-!
# Recursive calls on a path

A path is searched from the mux outward, its start included, for the nearest
node that is a recursive call.
-/

namespace MuxFlow.Recursion

/-- The trouble with a path that does not start at the mux. -/
def startsElsewhere (mux node : String) : Fault :=
  .trouble
    { phase := .analyze, kind := .invalidInput, node := mux
      detail := "path starts at " ++ Text.quote node }

/-- The first frame of a list that is at a recursive call. -/
def firstRecursive (g : Graph) : List Frame → Except Fault (Option Frame)
  | [] => .ok none
  | f :: fs => do
    let n ← g.node f.node
    if n.recursive then .ok (some f) else firstRecursive g fs

/-- The recursive call of a path that is nearest to the mux. -/
def firstOnPath (g : Graph) (mux : String) (p : Path) : Except Fault (Option Frame) :=
  match p.start? with
  | none => .ok none
  | some s =>
    if s.node = mux then firstRecursive g p.outward
    else .error (startsElsewhere mux s.node)

/-- The nearest call of every path, one for each node, in path order. -/
def firstOnPaths (g : Graph) (mux : String) (paths : List Path) :
    Except Fault (List Frame) := do
  let found ← paths.mapM (firstOnPath g mux)
  .ok (distinctBy Frame.node (found.filterMap id))

end MuxFlow.Recursion
