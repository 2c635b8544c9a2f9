import MuxFlow.Continuation.InputPaths
import MuxFlow.Continuation.Divergence
import MuxFlow.Continuation.Recursion
import MuxFlow.Continuation.Branching

/-!
# The continuations of a mux

For each analysed port, the paths are cut down to the part that no other port
shares; on what is left the nearest recursive calls and the branches that join
them are found. The muxes at which whole paths end are added. The list has the
recursive calls of all ports first, then the branches, then the nested muxes,
and names a node at most once for a port.
-/

namespace MuxFlow

/-- The continuation list of one mux. -/
structure MuxContinuations where
  mux : String
  continuations : List Descriptor
  deriving DecidableEq, Repr

namespace Mux

/-- The nested muxes that end the given paths. -/
def nestedStarts (g : Graph) (port : String) (paths : List Path) :
    Except Fault (List Descriptor) := do
  let ends ← (paths.filterMap Path.terminal?).filter (fun f => !f.isStart) |>.mapM fun f => do
    let n ← g.node f.node
    .ok (n.isMux, f.node)
  .ok ((ends.filter Prod.fst).map fun e => { node := e.2, port })

/-- What is found behind one port. -/
structure PortFindings where
  recursions : List Descriptor
  branchings : List Descriptor
  starts : List Descriptor
  deriving DecidableEq, Repr

/-- The parts of the paths of a port that the other ports do not share. -/
def trimmed (g : Graph) (paths : InputPaths) (x : MuxPort) : List Path :=
  (paths.port x).map (Divergence.trim g (paths.others x))

/-- The analysis of one port. -/
def findings (g : Graph) (mux : String) (paths : InputPaths) (x : MuxPort) :
    Except Fault PortFindings := do
  let own := trimmed g paths x
  let found ← Recursion.firstOnPaths g mux own
  let starts ← nestedStarts g x.name (paths.port x)
  .ok
    { recursions := found.map fun f =>
        { node := f.node, port := x.name, type := Descriptor.recursion }
      branchings := Branching.points own found x.name
      starts }

/-- The findings of all ports as one list. -/
def merge (fs : List PortFindings) : List Descriptor :=
  distinctBy Descriptor.key
    (fs.flatMap PortFindings.recursions ++ fs.flatMap PortFindings.branchings ++
      fs.flatMap PortFindings.starts)

/-- The continuations of a mux. -/
def continuations (g : Graph) (mux : String) (o : Options) :
    Except Fault MuxContinuations := do
  o.validate
  let paths ← inputPaths g mux
  let fs ← o.ports.mapM (findings g mux paths)
  .ok { mux, continuations := merge fs }

end Mux

end MuxFlow
