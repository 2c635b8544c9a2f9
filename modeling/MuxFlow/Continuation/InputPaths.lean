import MuxFlow.Options
import MuxFlow.Walk.Back

/-!
# The operands of a mux

`inputPaths g mux` walks backward from each port of a mux. A walk stops where a
value comes from outside the function around the mux, which is at the inputs of
a recursive body, and where another mux has already chosen, which is at the
outputs of other muxes. A compound node that is entered from behind is walked
through, unless it is a recursive call or a recursive body.
-/

namespace MuxFlow

/-- The paths behind each port of a mux. -/
structure InputPaths where
  input1 : List Path
  input2 : List Path
  control : List Path
  deriving DecidableEq, Repr

/-- The paths behind a port. -/
def InputPaths.port (ps : InputPaths) : MuxPort → List Path
  | .input1 => ps.input1
  | .input2 => ps.input2
  | .control => ps.control

/-- The sets of paths behind the two other ports. -/
def InputPaths.others (ps : InputPaths) (x : MuxPort) : List (List Path) :=
  x.others.map ps.port

namespace Mux

/-- The ports through which a walk from `mux` goes on. -/
def follow (mux : String) (n : Node) (port : String) : List String :=
  let side := n.direction port
  if side = .input then
    if n.recursiveRoot then [] else [port]
  else if n.isMux ∧ n.id ≠ mux then []
  else if n.kind = .compound ∧ side = .output ∧ ¬n.recursive ∧ ¬n.recursiveRoot then
    n.outputNames
  else n.inputNames

/-- The trouble with a node that is not a mux. -/
def notMux (mux : String) (kind : Kind) : Fault :=
  .trouble
    { phase := .analyze, kind := .invalidInput, node := mux
      detail := "node is a " ++ kind.name ++ ", not a mux" }

/-- The backward paths of the three ports of a mux. -/
def inputPaths (g : Graph) (mux : String) : Except Fault InputPaths := do
  let n ← g.node mux
  if n.isMux then
    let walk (x : MuxPort) := Walk.back g mux x.name fun n port => .ok (follow mux n port)
    let input1 ← walk .input1
    let input2 ← walk .input2
    let control ← walk .control
    .ok { input1, input2, control }
  else .error (notMux mux n.kind)

end Mux

end MuxFlow
