import MuxFlow.Json.Value
import MuxFlow.Text.Source
import MuxFlow.Yaml.Scalar

/-!
# YAML nodes

A YAML document is a tree of nodes. A scalar has a tag, which says how its text
is meant; a scalar that was written without one carries the tag that its
spelling gives it. An alias stands for the node it names. Where that node is just
being put in the place of another alias, or is being read itself, the alias has no
target here, because writing the target in its place would never come to an end.

`Node.ofJson` turns a JSON value into a node and `Node.toJson` does the reverse:
aliases are replaced by what they stand for, and the keys of a mapping are the
texts of its key nodes, whatever they mean.
-/

namespace MuxFlow.Yaml

/-- A node of a YAML document. -/
inductive Node where
  | scalar (tag : String) (text : String)
  | sequence (items : List Node)
  | mapping (entries : List (Node × Node))
  /-- Another name for a node; none when that node would be put into itself. -/
  | aliasOf (name : String) (target : Option Node)
  deriving Inhabited

namespace Node

/-- A text. -/
def text (s : String) : Node := scalar "!!str" s

mutual

/-- The node of a JSON value. -/
def ofJson : Json → Node
  | .null => scalar "!!null" "null"
  | .bool b => scalar "!!bool" (if b then "true" else "false")
  | .num n => scalar "!!float" (Number.layout n)
  | .str s => text s
  | .arr items => sequence (ofItems items)
  | .obj members => mapping (ofMembers members)

/-- The nodes of a list of values. -/
def ofItems : List Json → List Node
  | [] => []
  | v :: vs => ofJson v :: ofItems vs

/-- The entries of the members of an object. -/
def ofMembers : List (String × Json) → List (Node × Node)
  | [] => []
  | (name, v) :: ms => (text name, ofJson v) :: ofMembers ms

end

/-- The text of a node that stands as a key. -/
def keyText : Node → String
  | scalar _ s => s
  | aliasOf name _ => name
  | _ => ""

end Node

/-- Why a node has no JSON value. -/
inductive NoValue where
  /-- A scalar does not have the meaning that its tag asks for, or no number or
  time that JSON could hold. -/
  | meaningless (text : String)
  /-- A node contains itself. -/
  | endless (name : String)
  deriving DecidableEq, Repr

/-- The value of a digit of base 64. -/
def sextet? (c : Char) : Option Nat :=
  if 'A' ≤ c ∧ c ≤ 'Z' then some (c.toNat - 0x41)
  else if 'a' ≤ c ∧ c ≤ 'z' then some (c.toNat - 0x61 + 26)
  else if '0' ≤ c ∧ c ≤ '9' then some (c.toNat - 0x30 + 52)
  else if c = '+' then some 62
  else if c = '/' then some 63
  else none

/-- The bytes of a text in base 64: four digits for three bytes, with `=` in the
place of digits that would be left over at the end. -/
def base64? : List Char → Option (List UInt8)
  | [] => some []
  | [a, b, '=', '='] => do
    let n := (← sextet? a) * 64 + (← sextet? b)
    return [(n / 16).toUInt8]
  | [a, b, c, '='] => do
    let n := ((← sextet? a) * 64 + (← sextet? b)) * 64 + (← sextet? c)
    return [(n / 1024).toUInt8, (n / 4 % 256).toUInt8]
  | a :: b :: c :: d :: rest => do
    let n := (((← sextet? a) * 64 + (← sextet? b)) * 64 + (← sextet? c)) * 64 + (← sextet? d)
    return (n / 65536).toUInt8 :: (n / 256 % 256).toUInt8 :: (n % 256).toUInt8 :: (← base64? rest)
  | _ => none

/-- The text that a scalar of bytes stands for. Line breaks inside do not
count. -/
def binaryText? (s : String) : Option String :=
  (base64? (s.toList.filter fun c => c ≠ '\n' && c ≠ '\r')).map fun bytes =>
    String.ofList (Text.Source.ofBytes bytes).lossy

/-- The JSON value of a meaning; infinities and what is no number have none. -/
def Meaning.toJson? : Meaning → Option Json
  | .null => some .null
  | .bool b => some (.bool b)
  | .int n => some (.num (.ofInt n))
  | .float x => some (.num x.toDecimal)
  | .infinity _ | .nan => none
  | .time t => t.text?.map .str
  | .text s => some (.str s)

/-- The JSON value of a scalar. -/
def scalarJson? (tag s : String) : Option Json :=
  if tag = "!!binary" then (binaryText? s).map .str
  else (resolve? tag s).bind Meaning.toJson?

namespace Node

mutual

/-- The JSON value of a node. -/
def toJson : Node → Except NoValue Json
  | scalar tag s =>
    match scalarJson? tag s with
    | some v => .ok v
    | none => .error (.meaningless s)
  | sequence items => (itemsJson items).map .arr
  | mapping entries => (entriesJson entries).map .obj
  | aliasOf name none => .error (.endless name)
  | aliasOf _ (some n) => toJson n

/-- The JSON values of items, in order. -/
def itemsJson : List Node → Except NoValue (List Json)
  | [] => .ok []
  | n :: ns => do return (← toJson n) :: (← itemsJson ns)

/-- The members of entries, in order. -/
def entriesJson : List (Node × Node) → Except NoValue (List (String × Json))
  | [] => .ok []
  | (k, n) :: es => do return (k.keyText, ← toJson n) :: (← entriesJson es)

end

end Node

end MuxFlow.Yaml
