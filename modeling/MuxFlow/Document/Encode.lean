import MuxFlow.Json.Writer
import MuxFlow.Graph.Basic

/-!
# A graph as a JSON value

`Graph.toJson` gives every graph its document: nodes and edges in order, members
in a fixed order, and no member for a field that is empty, false or absent. A
recursive call with one body names it without a list. The two layouts of the
text are `Graph.toJsonText`, on many lines, and `Graph.toCompactText`.
-/

namespace MuxFlow

/-- A member that is left out when there is nothing to say. -/
def memberIf (present : Bool) (name : String) (v : Json) : List (String × Json) :=
  if present then [(name, v)] else []

/-- A text member that is left out when empty. -/
def textMember (name s : String) : List (String × Json) := memberIf (s ≠ "") name (.str s)

/-- A member that is there when it is true. -/
def flagMember (name : String) (b : Bool) : List (String × Json) := memberIf b name (.bool true)

/-- A list of texts. -/
def textsJson (texts : List String) : Json := .arr (texts.map .str)

/-- The member of a descriptor, a mark or a list entry alike. -/
def Descriptor.toJson (d : Descriptor) : Json :=
  .obj (("node", .str d.node) :: ("port", .str d.port) ::
    (textMember "type" d.type ++
      memberIf (!d.branchPorts.isEmpty) "branchPorts" (textsJson d.branchPorts)))

/-- Ports as an object from names to types. -/
def portsJson (ports : List Port) : Json := .obj (ports.map fun p => (p.name, .str p.type))

/-- The member for ports that are declared. -/
def portsMember (name : String) (ports : List Port) : List (String × Json) :=
  memberIf (!ports.isEmpty) name (portsJson ports)

/-- The bodies of a recursive call. -/
def RecursesTo.toJson (r : RecursesTo) : Json :=
  .obj [("branch",
    match r.branch with
    | none => .null
    | some [id] => .str id
    | some ids => textsJson ids)]

/-- A mark. -/
def Mark.toJson : Mark → Json
  | body => .bool true
  | descriptor d => d.toJson

namespace Node

/-- The member for what an analysis run wrote. -/
def paramsMember (n : Node) : List (String × Json) :=
  let marks := (n.mark.map fun m => ("isContinuation", m.toJson)).toList
  let lists := memberIf (!n.continuations.isEmpty) "continuations"
    (.arr (n.continuations.map Descriptor.toJson))
  memberIf (n.mark.isSome || !n.continuations.isEmpty) "params" (.obj (marks ++ lists))

/-- Everything about a node but its id and its parent. -/
def valueJson (n : Node) : Json :=
  .obj (("atomic", .bool (n.kind ≠ .compound)) ::
    ((n.recursesTo.map fun r => ("recursesTo", r.toJson)).toList ++ n.paramsMember ++
      textMember "id" n.component ++ portsMember "inputPorts" n.inputs ++
      portsMember "outputPorts" n.outputs ++ flagMember "recursive" n.recursive ++
      flagMember "recursiveRoot" n.recursiveRoot))

/-- The entry of a node. -/
def toJson (n : Node) : Json :=
  .obj (("v", .str n.id) :: (textMember "parent" n.parent ++ [("value", n.valueJson)]))

end Node

namespace Edge

/-- Everything about an edge but its ends and its name. -/
def valueJson (e : Edge) : Json :=
  .obj (textMember "outPort" e.sourcePort ++ textMember "inPort" e.targetPort ++
    flagMember "continuation" e.continuation ++ flagMember "control" e.control)

/-- The entry of an edge. -/
def toJson (e : Edge) : Json :=
  .obj (("v", .str e.source) :: ("w", .str e.target) ::
    (textMember "name" e.name ++ [("value", e.valueJson)]))

end Edge

/-- What is said of every graph: it is directed, two nodes may have several edges
between them, and nodes may stand inside nodes. -/
def graphOptions : Json :=
  .obj [("directed", .bool true), ("multigraph", .bool true), ("compound", .bool true)]

/-- The members whose texts are escaped in every layout. -/
def escapedMembers : List String := ["inputPorts", "outputPorts", "branch", "isContinuation"]

namespace Graph

/-- The document of a graph. -/
def toJson (g : Graph) : Json :=
  .obj [("options", graphOptions), ("nodes", .arr (g.nodes.map Node.toJson)),
    ("edges", .arr (g.edges.map Edge.toJson))]

/-- The document on many lines, ended by a line break. -/
def toJsonText (g : Graph) : String :=
  String.ofList (g.toJson.pretty escapedMembers.contains false 0 ++ ['\n'])

/-- The document without blanks. -/
def toCompactText (g : Graph) : String := String.ofList g.toJson.compact

end Graph

end MuxFlow
