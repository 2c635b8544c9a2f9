import MuxFlow.Continuation.ForMux
import MuxFlow.Screen.Theme

/-!
# Listings

The continuations of a mux, and the paths behind its ports, as lines of text.
-/

namespace MuxFlow.Screen

/-- A line of a listing that belongs to the line above it. -/
def indented (line : String) : String := "  " ++ line ++ "\n"

namespace Theme

/-- The way a continuation is named: the node, the port, what it is, and the
ports through which a branch is left. -/
def descriptor (t : Theme) (d : Descriptor) : String :=
  let type := if d.type = "" then "mux start" else d.type
  let via := if d.branchPorts.isEmpty then "" else " via " ++ ", ".intercalate d.branchPorts
  t.render d.node ++ " @" ++ d.port ++ " " ++ t.render type ++ via

/-- A path, from its start outward. -/
def path (t : Theme) (p : Path) : String :=
  " ← ".intercalate (p.outward.map fun f => t.render f.node ++ "@" ++ f.port)

/-- The continuations of a mux under its id. -/
def continuations (t : Theme) (mc : MuxContinuations) : String :=
  let lines :=
    if mc.continuations.isEmpty then [t.render "no continuations"]
    else mc.continuations.map t.descriptor
  t.render mc.mux ++ "\n" ++ String.join (lines.map indented)

/-- The paths behind a port under its name, with their number. -/
def portPaths (t : Theme) (ps : InputPaths) (x : MuxPort) : String :=
  let paths := ps.port x
  t.render x.name ++ " (" ++ toString paths.length ++ ")\n" ++
    String.join (paths.map fun p => indented (t.path p))

/-- The paths behind all ports of a mux. -/
def inputPaths (t : Theme) (ps : InputPaths) : String :=
  String.join (MuxPort.all.map (t.portPaths ps))

end Theme

end MuxFlow.Screen
