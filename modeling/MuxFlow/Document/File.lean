import MuxFlow.Document.Yaml
import MuxFlow.FileSystem
import MuxFlow.Text.LowerCase

/-!
# Graph files

A graph is kept in a file whose name tells the notation: YAML if the last
extension says so, in any case, and JSON otherwise. Loading a graph and writing its text
choose by the same rule, so what is written under a name can be loaded under it.
-/

namespace MuxFlow

open Text (Source)

/-- The last extension of a name, with its point. -/
def extension (name : String) : String :=
  let base := name.toList.reverse.takeWhile (· ≠ '/')
  if '.' ∈ base then String.ofList ('.' :: (base.takeWhile (· ≠ '.')).reverse) else ""

/-- Whether a file is in YAML, by its name. -/
def isYamlName (name : String) : Bool :=
  Text.lower (extension name) ∈ [".yaml", ".yml"]

/-- What the system says about a name that cannot be used. -/
def FileTrouble.fault (why : FileTrouble) (attempt name : String) : Fault :=
  .plain (attempt ++ " " ++ name ++ ": " ++ why.message)

namespace Graph

/-- The graph of a file with a name. -/
def readNamed (name : String) (content : Source) : Except Fault Graph :=
  if isYamlName name then readYaml content else readJson content

/-- The text of a file with a name. -/
def textNamed (name : String) (g : Graph) : String :=
  if isYamlName name then g.toYamlText else g.toJsonText

/-- The fault of a graph that is asked for without a name. -/
def noName : Fault := .plain "no input graph given (use --input)"

/-- Loads a graph. A folder can be opened, but there is no document in it. -/
def load (fs : FileSystem) (name : String) : Except Fault Graph :=
  if name = "" then .error noName
  else
    match fs.read name with
    | .error .isAFolder =>
      .error (.within ("read " ++ name)
        (Document.notADocument (FileTrouble.isAFolder.fault "read" name).message))
    | .error why => .error (.within "open graph" (why.fault "open" name))
    | .ok content =>
      match readNamed name content with
      | .error fault => .error (.within ("read " ++ name) fault)
      | .ok g => .ok g

end Graph

end MuxFlow
