/-!
# YAML tokens

The tokens of a document are its scalars and names, its marks, and three that
are not written but follow from indentation: where a block begins and where it
ends. A text that cannot be cut into tokens has the token `fault` at the place
where the trouble is; everything before it stands.
-/

namespace MuxFlow.Yaml

/-- A token of a YAML text. -/
inductive Token where
  | streamEnd
  | version (major minor : Nat)
  | tagHandle (handle meaning : String)
  | documentStart
  | documentEnd
  | blockSequenceStart
  | blockMappingStart
  | blockEnd
  | flowSequenceStart
  | flowSequenceEnd
  | flowMappingStart
  | flowMappingEnd
  | blockEntry
  | flowEntry
  | key
  | value
  | aliasOf (name : String)
  | anchor (name : String)
  | tag (handle suffix : String)
  | scalar (text : String) (plain : Bool)
  | fault
  deriving DecidableEq, Repr

end MuxFlow.Yaml
