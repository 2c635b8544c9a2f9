import MuxFlow.Document.Field
import MuxFlow.Json.Writer
import MuxFlow.Graph.Node

/-!
# Graph documents

A `Document` is what a JSON value says of a graph, before it is known whether
there is such a graph: entries for nodes and edges, in order. The mark of a node
is kept as it stands in the document, because it is judged only when its node is
put into the graph.
-/

namespace MuxFlow.Document

/-- What a document says of a descriptor. -/
structure DescriptorEntry where
  node : String := ""
  port : String := ""
  type : String := ""
  branchPorts : Places String := {}

namespace DescriptorEntry

/-- The members of a descriptor. -/
def fields : List (String × Field DescriptorEntry) := [
  ("node", .on node (fun d x => { d with node := x }) .text),
  ("port", .on port (fun d x => { d with port := x }) .text),
  ("type", .on type (fun d x => { d with type := x }) .text),
  ("branchPorts", .on branchPorts (fun d x => { d with branchPorts := x })
    (Places.field "" .text))]

/-- The descriptor that an entry describes. -/
def descriptor (d : DescriptorEntry) : Descriptor :=
  ⟨d.node, d.port, d.type, d.branchPorts.items⟩

end DescriptorEntry

/-- What a document says of the annotations of a node. -/
structure ParamsEntry where
  /-- The mark, as it stands. -/
  mark : Json := .null
  continuations : Places DescriptorEntry := {}

/-- The members of the annotations. -/
def ParamsEntry.fields : List (String × Field ParamsEntry) := [
  ("isContinuation", .on mark (fun p x => { p with mark := x }) (.replace some)),
  ("continuations", .on continuations (fun p x => { p with continuations := x })
    (Places.field {} (.record DescriptorEntry.fields)))]

/-- The type of a port as a text: a text is itself, nothing is the empty text,
and anything else is shown as compact JSON in its normal form. -/
def portType? : Json → Option String
  | .str s => some s
  | .null => some ""
  | v => v.normal?.map fun v => String.ofList v.compact

/-- The ports of an object, one for every member. -/
def ports? : Json → Option (List Port)
  | .null => some []
  | .obj ms => ms.mapM fun m => (portType? m.2).map fun type => ⟨m.1, type⟩
  | _ => none

/-- A text of a list of texts; an item that says nothing is the empty text. -/
def itemText? : Json → Option String
  | .str s => some s
  | .null => some ""
  | _ => none

/-- The bodies of a recursive call: a list of ids, or one id without a list. -/
def branch? : Json → Option (Option (List String))
  | .arr vs => (vs.mapM itemText?).map some
  | v => (itemText? v).map fun s => some [s]

/-- What a document says of a node under `value`. -/
structure NodeValue where
  atomic : Option Bool := none
  recursesTo : Option RecursesTo := none
  params : Option ParamsEntry := none
  component : String := ""
  inputs : List Port := []
  outputs : List Port := []
  recursive : Bool := false
  recursiveRoot : Bool := false

/-- The members of the target of a recursive call. -/
def recursesToFields : List (String × Field RecursesTo) := [
  ("branch", .on RecursesTo.branch (fun _ x => ⟨x⟩) (.replace branch?))]

/-- The members of the value of a node. -/
def NodeValue.fields : List (String × Field NodeValue) := [
  ("atomic", .on atomic (fun n x => { n with atomic := x }) (.optional false .flag)),
  ("recursesTo", .on recursesTo (fun n x => { n with recursesTo := x })
    (.optional ⟨none⟩ (.record recursesToFields))),
  ("params", .on params (fun n x => { n with params := x })
    (.optional {} (.record ParamsEntry.fields))),
  ("id", .on component (fun n x => { n with component := x }) .text),
  ("inputPorts", .on inputs (fun n x => { n with inputs := x }) (.replace ports?)),
  ("outputPorts", .on outputs (fun n x => { n with outputs := x }) (.replace ports?)),
  ("recursive", .on recursive (fun n x => { n with recursive := x }) .flag),
  ("recursiveRoot", .on recursiveRoot (fun n x => { n with recursiveRoot := x }) .flag)]

/-- What a document says of a node. -/
structure NodeEntry where
  id : String := ""
  parent : String := ""
  value : NodeValue := {}

/-- The members of a node. -/
def NodeEntry.fields : List (String × Field NodeEntry) := [
  ("v", .on id (fun n x => { n with id := x }) .text),
  ("parent", .on parent (fun n x => { n with parent := x }) .text),
  ("value", .on value (fun n x => { n with value := x }) (.record NodeValue.fields))]

/-- What a document says of an edge under `value`. -/
structure EdgeValue where
  sourcePort : String := ""
  targetPort : String := ""
  continuation : Bool := false
  control : Bool := false

/-- The members of the value of an edge. -/
def EdgeValue.fields : List (String × Field EdgeValue) := [
  ("outPort", .on sourcePort (fun e x => { e with sourcePort := x }) .text),
  ("inPort", .on targetPort (fun e x => { e with targetPort := x }) .text),
  ("continuation", .on continuation (fun e x => { e with continuation := x }) .flag),
  ("control", .on control (fun e x => { e with control := x }) .flag)]

/-- What a document says of an edge. -/
structure EdgeEntry where
  source : String := ""
  target : String := ""
  name : String := ""
  value : EdgeValue := {}

/-- The members of an edge. -/
def EdgeEntry.fields : List (String × Field EdgeEntry) := [
  ("v", .on source (fun e x => { e with source := x }) .text),
  ("w", .on target (fun e x => { e with target := x }) .text),
  ("name", .on name (fun e x => { e with name := x }) .text),
  ("value", .on value (fun e x => { e with value := x }) (.record EdgeValue.fields))]

end MuxFlow.Document

namespace MuxFlow

/-- What a JSON value says of a graph. -/
structure Document where
  nodes : Document.Places Document.NodeEntry := {}
  edges : Document.Places Document.EdgeEntry := {}

namespace Document

/-- The members of a document; its options say nothing that is used. -/
def fields : List (String × Field Document) := [
  ("nodes", .on nodes (fun d x => { d with nodes := x })
    (Places.field {} (.record NodeEntry.fields))),
  ("edges", .on edges (fun d x => { d with edges := x })
    (Places.field {} (.record EdgeEntry.fields)))]

/-- The document that a JSON value holds. -/
def ofJson? (v : Json) : Option Document := Field.record fields {} v

end Document

end MuxFlow
