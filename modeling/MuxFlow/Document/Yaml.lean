import MuxFlow.Document.Build
import MuxFlow.Document.Encode
import MuxFlow.Yaml.Node.OfTokens
import MuxFlow.Yaml.Writer

/-!
# Graph documents in YAML

The YAML document of a graph is its JSON document in another notation: the same
value, written as a tree of nodes. A YAML file is read in the same way: its
first document is turned into a JSON value, which is then read as a graph. A
node that contains itself has no JSON value, and turning it into one never comes
to an end.
-/

namespace MuxFlow.Graph

/-- The document of a graph as a tree of YAML nodes. -/
def toYaml (g : Graph) : Yaml.Node := Yaml.Node.ofJson g.toJson

/-- The document of a graph as a YAML text. -/
def toYamlText (g : Graph) : String :=
  match g.toYaml with
  | .mapping entries => Yaml.documentText false entries
  | _ => ""

/-- The graph whose document a YAML node is. -/
def ofYaml (n : Yaml.Node) : Except Fault Graph :=
  match n.toJson with
  | .error (.endless _) => .error .endless
  | .error (.meaningless s) =>
    .error (Document.notADocument ("no value for " ++ Text.quote s))
  | .ok v =>
    if Json.maxDepth < v.depth then .error (Document.notADocument "nested too deep") else ofJson v

/-- The graph of a YAML file. -/
def readYaml (source : Text.Source) : Except Fault Graph :=
  match Yaml.Node.read? source with
  | none => .error (Document.notADocument "malformed YAML")
  | some none => .error (Document.notADocument "no document")
  | some (some n) => ofYaml n

end MuxFlow.Graph
