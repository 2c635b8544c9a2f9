import MuxFlow.Yaml.Serial
import MuxFlow.Yaml.Token.Stream

/-!
# Nodes from tokens

The first document of a row of tokens is read as it is written, and then without
references. Blocks and flow collections are read item by item; where an item is
missing, an empty scalar stands for it. A node that has an anchor can be named by
aliases after it, and also by aliases inside it: while a node is being read, its
anchor is known but has no node yet (`Anchor.node?`).

Reading calls itself once for every token at most, so the number of tokens
bounds the depth of the calls.
-/

namespace MuxFlow.Yaml

/-- A name given to a node. -/
structure Anchor where
  name : String
  /-- The number of names given before it. -/
  number : Nat
  /-- The node, once it is read. -/
  node? : Option Serial

/-- What is known while a document is read. -/
structure Reading where
  /-- What tag handles stand for. -/
  handles : List (String × String)
  /-- The names given so far, last first. -/
  anchors : List Anchor := []

namespace Reading

/-- The handles that every document knows. -/
def defaultHandles : List (String × String) := [("!", "!"), ("!!", "tag:yaml.org,2002:")]

/-- Gives a name to the node that begins here, and tells its number. -/
def begin (r : Reading) (name : String) : Reading × Nat :=
  let n := r.anchors.length
  ({ r with anchors := ⟨name, n, none⟩ :: r.anchors }, n)

/-- Says what node a name was given to. -/
def settle (r : Reading) (number : Option Nat) (node : Serial) : Reading :=
  match number with
  | none => r
  | some n =>
    { r with
      anchors := r.anchors.map fun a => if a.number = n then { a with node? := some node } else a }

/-- The alias of a name. -/
def named? (r : Reading) (name : String) : Option Serial :=
  (r.anchors.find? fun a => a.name = name).map fun a => .aliasOf name a.number

/-- What a tag stands for, in its short form; none inside if it says nothing. -/
def tag? (r : Reading) (handle suffix : String) : Option (Option String) :=
  if handle = "" then some (if suffix = "" ∨ suffix = "!" then none else some (shorten suffix))
  else
    match r.handles.find? fun h => h.1 = handle with
    | none => none
    | some (_, meaning) =>
      if meaning ++ suffix = "" then none
      else if meaning ++ suffix = "!" then some none
      else some (some (shorten (meaning ++ suffix)))
where
  /-- The short form of a tag of the standard. -/
  shorten (tag : String) : String :=
    let long := "tag:yaml.org,2002:".toList
    if long.isPrefixOf tag.toList then "!!" ++ String.ofList (tag.toList.drop long.length) else tag

end Reading

/-- What stands in front of a node. -/
structure Properties where
  reading : Reading
  /-- The number of its anchor. -/
  anchor : Option Nat := none
  tag : Option String := none
  /-- Whether there is a tag or an anchor. -/
  present : Bool := false

namespace Properties

/-- Reads an anchor. -/
def addAnchor (p : Properties) (name : String) : Properties :=
  let (reading, n) := p.reading.begin name
  { p with reading, anchor := some n, present := true }

/-- Reads a tag. -/
def addTag? (p : Properties) (handle suffix : String) : Option Properties :=
  (p.reading.tag? handle suffix).map fun tag =>
    { p with tag, present := p.present || handle ≠ "" || suffix ≠ "" }

/-- Reads an anchor and a tag, in either order; both may be missing. -/
def read? (r : Reading) : List Token → Option (Properties × List Token)
  | .anchor name :: .tag handle suffix :: ts =>
    ((addAnchor { reading := r } name).addTag? handle suffix).map fun p => (p, ts)
  | .anchor name :: ts => some (addAnchor { reading := r } name, ts)
  | .tag handle suffix :: .anchor name :: ts =>
    (addTag? { reading := r } handle suffix).map fun p => (p.addAnchor name, ts)
  | .tag handle suffix :: ts => (addTag? { reading := r } handle suffix).map fun p => (p, ts)
  | ts => some ({ reading := r }, ts)

end Properties

/-- A scalar as a node. One that is written without a tag gets the tag of its
spelling; a plain `<<` asks for another mapping to be merged. -/
def scalarNode (tag : Option String) (text : String) (plain : Bool) : Serial :=
  .scalar (tag.getD (if !plain then "!!str" else if text = "<<" then "!!merge" else plainTag text))
    text

/-- The scalar that stands for a missing node. -/
def emptyNode : Serial := scalarNode none "" true

/-- Which nodes may begin at a place. -/
inductive Setting where
  /-- Only nodes without indentation of their own. -/
  | flow
  /-- Blocks too. -/
  | block
  /-- Also a sequence at the column of the mapping that it is a value of. -/
  | value
  deriving DecidableEq, Repr

/-- A node that has been read, and the tokens after it. -/
abbrev Progress := Reading × Serial × List Token

mutual

/-- Reads a node. -/
def node? (fuel : Nat) (setting : Setting) (r : Reading) (ts : List Token) : Option Progress :=
  match fuel with
  | 0 => none
  | fuel + 1 =>
    match ts with
    | .aliasOf name :: ts => (r.named? name).map fun n => (r, n, ts)
    | ts =>
      match Properties.read? r ts with
      | none => none
      | some (p, ts) =>
        let r := p.reading
        let named (result : Option Progress) : Option Progress :=
          result.map fun (r, n, ts) => (r.settle p.anchor n, n, ts)
        match setting, ts with
        | .value, .blockEntry :: _ => named (openItems? fuel r [] ts)
        | _, .scalar text plain :: ts => named (some (r, scalarNode p.tag text plain, ts))
        | _, .flowSequenceStart :: ts => named (flowItems? fuel true r [] ts)
        | _, .flowMappingStart :: ts => named (flowEntries? fuel true r [] ts)
        | .block, .blockSequenceStart :: ts | .value, .blockSequenceStart :: ts =>
          named (blockItems? fuel r [] ts)
        | .block, .blockMappingStart :: ts | .value, .blockMappingStart :: ts =>
          named (blockEntries? fuel r [] ts)
        | _, ts => if p.present then named (some (r, scalarNode p.tag "" true, ts)) else none

/-- Reads the items of a block sequence; `items` are those read, last first. -/
def blockItems? (fuel : Nat) (r : Reading) (items : List Serial) (ts : List Token) :
    Option Progress :=
  match fuel, ts with
  | 0, _ => none
  | _ + 1, .blockEnd :: ts => some (r, .sequence items.reverse, ts)
  | fuel + 1, .blockEntry :: ts =>
    match ts with
    | .blockEntry :: _ | .blockEnd :: _ => blockItems? fuel r (emptyNode :: items) ts
    | ts =>
      match node? fuel .block r ts with
      | some (r, n, ts) => blockItems? fuel r (n :: items) ts
      | none => none
  | _ + 1, _ => none

/-- Reads the items of a sequence that has no indentation of its own. -/
def openItems? (fuel : Nat) (r : Reading) (items : List Serial) (ts : List Token) :
    Option Progress :=
  match fuel, ts with
  | 0, _ => none
  | fuel + 1, .blockEntry :: ts =>
    match ts with
    | .blockEntry :: _ | .key :: _ | .value :: _ | .blockEnd :: _ =>
      openItems? fuel r (emptyNode :: items) ts
    | ts =>
      match node? fuel .block r ts with
      | some (r, n, ts) => openItems? fuel r (n :: items) ts
      | none => none
  | _ + 1, ts => some (r, .sequence items.reverse, ts)

/-- Reads a node of a block mapping, or the empty one if there is none. -/
def entryPart? (fuel : Nat) (r : Reading) (ts : List Token) : Option Progress :=
  match fuel, ts with
  | 0, _ => none
  | _ + 1, .key :: _ | _ + 1, .value :: _ | _ + 1, .blockEnd :: _ => some (r, emptyNode, ts)
  | fuel + 1, ts => node? fuel .value r ts

/-- Reads the entries of a block mapping. -/
def blockEntries? (fuel : Nat) (r : Reading) (entries : List (Serial × Serial)) (ts : List Token) :
    Option Progress :=
  match fuel, ts with
  | 0, _ => none
  | _ + 1, .blockEnd :: ts => some (r, .mapping entries.reverse, ts)
  | fuel + 1, .key :: ts =>
    match entryPart? fuel r ts with
    | some (r, k, .value :: ts) =>
      match entryPart? fuel r ts with
      | some (r, v, ts) => blockEntries? fuel r ((k, v) :: entries) ts
      | none => none
    | some (r, k, ts) => blockEntries? fuel r ((k, emptyNode) :: entries) ts
    | none => none
  | _ + 1, _ => none

/-- Reads the items of a flow sequence. -/
def flowItems? (fuel : Nat) (first : Bool) (r : Reading) (items : List Serial) (ts : List Token) :
    Option Progress :=
  match fuel with
  | 0 => none
  | fuel + 1 =>
    let ts? : Option (List Token) :=
      match first, ts with
      | false, .flowEntry :: ts => some ts
      | false, .flowSequenceEnd :: _ => some ts
      | false, _ => none
      | true, ts => some ts
    match ts? with
    | none => none
    | some (.flowSequenceEnd :: ts) => some (r, .sequence items.reverse, ts)
    | some (.key :: ts) =>
      match flowPair? fuel r ts with
      | some (r, n, ts) => flowItems? fuel false r (n :: items) ts
      | none => none
    | some ts =>
      match node? fuel .flow r ts with
      | some (r, n, ts) => flowItems? fuel false r (n :: items) ts
      | none => none

/-- Reads a single entry in a flow sequence, as a mapping. A missing key takes
the token after it along. -/
def flowPair? (fuel : Nat) (r : Reading) (ts : List Token) : Option Progress :=
  match fuel with
  | 0 => none
  | fuel + 1 =>
    let key :=
      match ts with
      | .value :: ts | .flowEntry :: ts | .flowSequenceEnd :: ts => some (r, emptyNode, ts)
      | ts => node? fuel .flow r ts
    match key with
    | none => none
    | some (r, k, .value :: ts) =>
      match ts with
      | .flowEntry :: _ | .flowSequenceEnd :: _ => some (r, .mapping [(k, emptyNode)], ts)
      | ts => (node? fuel .flow r ts).map fun (r, v, ts) => (r, .mapping [(k, v)], ts)
    | some (r, k, ts) => some (r, .mapping [(k, emptyNode)], ts)

/-- Reads the entries of a flow mapping. -/
def flowEntries? (fuel : Nat) (first : Bool) (r : Reading) (entries : List (Serial × Serial))
    (ts : List Token) : Option Progress :=
  match fuel with
  | 0 => none
  | fuel + 1 =>
    let ts? : Option (List Token) :=
      match first, ts with
      | false, .flowEntry :: ts => some ts
      | false, .flowMappingEnd :: _ => some ts
      | false, _ => none
      | true, ts => some ts
    match ts? with
    | none => none
    | some (.flowMappingEnd :: ts) => some (r, .mapping entries.reverse, ts)
    | some (.key :: ts) =>
      let key :=
        match ts with
        | .value :: _ | .flowEntry :: _ | .flowMappingEnd :: _ => some (r, emptyNode, ts)
        | ts => node? fuel .flow r ts
      match key with
      | none => none
      | some (r, k, .value :: ts) =>
        match ts with
        | .flowEntry :: _ | .flowMappingEnd :: _ =>
          flowEntries? fuel false r ((k, emptyNode) :: entries) ts
        | ts =>
          match node? fuel .flow r ts with
          | some (r, v, ts) => flowEntries? fuel false r ((k, v) :: entries) ts
          | none => none
      | some (r, k, ts) => flowEntries? fuel false r ((k, emptyNode) :: entries) ts
    | some ts =>
      match node? fuel .flow r ts with
      | some (r, k, ts) => flowEntries? fuel false r ((k, emptyNode) :: entries) ts
      | none => none

end

/-- The directives in front of a document. -/
structure Preamble where
  versioned : Bool := false
  handles : List (String × String) := []

/-- Reads directives: one version at most, which must be 1.1, and a meaning for
every handle at most once. -/
def Preamble.read? (p : Preamble) : List Token → Option (Preamble × List Token)
  | .version major minor :: ts =>
    if p.versioned || major ≠ 1 || minor ≠ 1 then none
    else Preamble.read? { p with versioned := true } ts
  | .tagHandle handle meaning :: ts =>
    if p.handles.any fun h => h.1 = handle then none
    else Preamble.read? { p with handles := p.handles ++ [(handle, meaning)] } ts
  | ts => some (p, ts)

/-- Whether the token after a document, and the two after that, are in order:
they are looked at before the document is handed out. -/
def isEnded (ts : List Token) : Bool := !(ts.take 3).contains .fault

namespace SerialTree

/-- The first document of a row of tokens, if they make one; none inside if
there is no document at all. -/
def ofTokens? (ts : List Token) : Option (Option SerialTree) :=
  let fuel := 4 * ts.length + 4
  match ts with
  | [] | .streamEnd :: _ => some none
  | .documentStart :: _ | .version .. :: _ | .tagHandle .. :: _ =>
    match Preamble.read? {} ts with
    | some (p, .documentStart :: ts) =>
      let r : Reading := { handles := p.handles ++ Reading.defaultHandles }
      match ts with
      | .documentStart :: _ | .documentEnd :: _ | .streamEnd :: _ | .version .. :: _
      | .tagHandle .. :: _ => if isEnded ts then some (some ⟨emptyNode, []⟩) else none
      | ts => ended (node? fuel .block r ts)
    | _ => none
  | ts => ended (node? fuel .block { handles := Reading.defaultHandles } ts)
where
  /-- The node and those with anchors, if the tokens after it are in order. By then every
  anchor has its node. -/
  ended : Option Progress → Option (Option SerialTree)
    | some (r, n, ts) =>
      if isEnded ts then
        some (some ⟨n, r.anchors.reverse.map fun a => a.node?.getD emptyNode⟩)
      else none
    | none => none

/-- The first document of a file, if it can be read; none inside if there is no
document. -/
def read? (source : Text.Source) : Option (Option SerialTree) :=
  (readable? source).bind fun text => ofTokens? (Token.ofText text)

end SerialTree

/-- The node of the first document of a file, without references. -/
def Node.read? (source : Text.Source) : Option (Option Node) :=
  (SerialTree.read? source).map fun t => t.map SerialTree.node

end MuxFlow.Yaml
