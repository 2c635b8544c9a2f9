import MuxFlow.Document.Basic
import MuxFlow.Graph.Basic
import MuxFlow.Json.Reader
import MuxFlow.Text.Source

/-!
# A graph from a document

The entries of a document are put into a builder in order, nodes before edges.
The first node that cannot be added decides how reading fails: its mark is
judged right before it is added. Ends of edges that lead nowhere are the last
thing to be found.
-/

namespace MuxFlow

namespace Document

/-- The trouble with a text that is no graph document. -/
def notADocument (why : String) : Fault :=
  .caused { phase := .load, kind := .invalidData, detail := "parse graph document" } (.plain why)

/-- The trouble with a mark that is neither a truth value nor a descriptor. -/
def badMark (id : String) : Fault :=
  .caused { phase := .load, kind := .invalidData, node := id, detail := "isContinuation" }
    (.plain "expected a truth value or a descriptor")

/-- The mark that a JSON value describes; `none` inside is no mark. -/
def mark? : Json → Option (Option Mark)
  | .null | .bool false => some none
  | .bool true => some (some .body)
  | v => (Field.record DescriptorEntry.fields {} v).map fun d => some (.descriptor d.descriptor)

namespace NodeEntry

/-- The node of an entry, without its annotations. -/
def plainNode (e : NodeEntry) : Node where
  id := e.id
  component := e.value.component
  parent := e.parent
  kind := .resolve e.value.component (e.value.atomic.getD true)
  inputs := e.value.inputs
  outputs := e.value.outputs
  recursive := e.value.recursive
  recursiveRoot := e.value.recursiveRoot
  recursesTo := e.value.recursesTo

/-- The node of an entry. -/
def node (e : NodeEntry) : Except Fault Node :=
  match e.value.params with
  | none => .ok e.plainNode
  | some p =>
    match mark? p.mark with
    | none => .error (badMark e.id)
    | some mark =>
      .ok { e.plainNode with
        mark, continuations := p.continuations.items.map DescriptorEntry.descriptor }

end NodeEntry

/-- The edge of an entry. -/
def EdgeEntry.edge (e : EdgeEntry) : Edge where
  source := e.source
  sourcePort := e.value.sourcePort
  target := e.target
  targetPort := e.value.targetPort
  name := e.name
  continuation := e.value.continuation
  control := e.value.control

/-- Adds the node of an entry. -/
def addEntry (b : Builder) (e : NodeEntry) : Except Fault Builder := do
  b.addNode (← e.node)

/-- The graph that a document describes. -/
def graph (d : Document) : Except Fault Graph := do
  let b ← d.nodes.items.foldlM addEntry Builder.empty
  (d.edges.items.foldl (fun b e => b.addEdge e.edge) b).build

end Document

namespace Graph

/-- The graph whose document a JSON value is. -/
def ofJson (v : Json) : Except Fault Graph :=
  match Document.ofJson? v with
  | none => .error (Document.notADocument "a member has a value of the wrong kind")
  | some d => d.graph

/-- The graph of a JSON text. -/
def ofJsonChars (text : List Char) : Except Fault Graph :=
  match Json.read? text with
  | none => .error (Document.notADocument "malformed JSON")
  | some v => ofJson v

/-- The graph of a JSON file. Stray bytes are read as the replacement character. -/
def readJson (source : Text.Source) : Except Fault Graph := ofJsonChars source.lossy

end Graph

end MuxFlow
