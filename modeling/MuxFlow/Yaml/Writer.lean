import MuxFlow.Text.Quoted
import MuxFlow.Yaml.Node
import MuxFlow.Yaml.Style

/-!
# Writing YAML

Nodes are written in block form, one entry or item a line, two blanks for each
level; an item of a sequence begins on the line of its dash. Empty containers
are written as brackets. Lines are never folded. A key that has line breaks or
is very long stands on a line of its own behind a question mark.

A scalar that is a block of lines may end with a line break of its own, so a
piece of text comes with the information whether it has ended its line
(`Piece.ended`).
-/

namespace MuxFlow.Yaml

/-- A piece of written text, and whether its last line is ended. -/
structure Piece where
  chars : List Char
  ended : Bool := false

namespace Piece

/-- One piece after the other. -/
def append (a b : Piece) : Piece := ⟨a.chars ++ b.chars, b.ended⟩

instance : Append Piece := ⟨append⟩

end Piece

/-! ## Scalars -/

/-- The blanks at the beginning of a line. -/
def pad (indent : Nat) : List Char := List.replicate indent ' '

/-- The letter of a short escape. -/
def escapeLetter? (c : Char) : Option Char :=
  match c.toNat with
  | 0x00 => some '0'
  | 0x07 => some 'a'
  | 0x08 => some 'b'
  | 0x09 => some 't'
  | 0x0a => some 'n'
  | 0x0b => some 'v'
  | 0x0c => some 'f'
  | 0x0d => some 'r'
  | 0x1b => some 'e'
  | 0x22 => some '"'
  | 0x5c => some '\\'
  | 0x85 => some 'N'
  | 0x2028 => some 'L'
  | 0x2029 => some 'P'
  | _ => none

/-- The last `width` hexadecimal digits of a number, in upper case. -/
def upperHex (width n : Nat) : List Char := (Text.hexDigits width n).map Char.toUpper

/-- An escape in double quotes. -/
def escape (c : Char) : List Char :=
  match escapeLetter? c with
  | some letter => ['\\', letter]
  | none =>
    let n := c.toNat
    if n ≤ 0xff then '\\' :: 'x' :: upperHex 2 n
    else if n ≤ 0xffff then '\\' :: 'u' :: upperHex 4 n
    else '\\' :: 'U' :: upperHex 8 n

/-- A character between double quotes. -/
def doubleChar (c : Char) : List Char :=
  if !isPrintable c || isBreak c || c = '"' || c = '\\' then escape c else [c]

/-- A scalar between double quotes. -/
def doubleQuoted (s : List Char) : List Char := '"' :: (s.flatMap doubleChar ++ ['"'])

/-- The characters between single quotes; a line inside begins with blanks. -/
def singleBody (indent : Nat) : Bool → List Char → List Char
  | _, [] => []
  | atBreak, c :: cs =>
    if isBreak c then c :: singleBody indent true cs
    else
      (if atBreak then pad indent else []) ++
        ((if c = '\x27' then ['\x27', c] else [c]) ++ singleBody indent false cs)

/-- A scalar between single quotes. -/
def singleQuoted (indent : Nat) (s : List Char) : List Char :=
  '\x27' :: (singleBody indent false s ++ ['\x27'])

/-- The lines of a block; `begun` tells whether the line of its header has
ended. -/
def literalBody (indent : Nat) : Bool → Bool → List Char → List Char
  | _, _, [] => []
  | begun, atBreak, c :: cs =>
    if isBreak c then c :: literalBody indent true true cs
    else
      (if atBreak then (if begun then [] else ['\n']) ++ pad indent else []) ++
        c :: literalBody indent true false cs

/-- What is said about the end of a block: nothing if it ends with one line
break. -/
def chomping (s : List Char) : List Char :=
  match s.reverse with
  | [] => ['-']
  | [a] => if isBreak a then ['+'] else ['-']
  | a :: b :: _ => if !isBreak a then ['-'] else if isBreak b then ['+'] else []

/-- A scalar as a block of lines. The depth of the block is given if the first
line does not show it. -/
def literalBlock (indent : Nat) (s : List Char) : Piece :=
  let depth := if beginsWith (fun c => c = ' ' || isBreak c) s then ['2'] else []
  ⟨'|' :: (depth ++ chomping s ++ literalBody indent false true s), endsWith isBreak s⟩

/-- A scalar; its further lines are indented. -/
def scalarPiece (wary : Bool) (indent : Nat) (tag s : String) : Piece :=
  let cs := s.toList
  match Style.choose (tag = "!!str" && mistakable wary s) cs with
  | .plain => ⟨cs, false⟩
  | .single => ⟨singleQuoted indent cs, false⟩
  | .double => ⟨doubleQuoted cs, false⟩
  | .literal => literalBlock indent cs

/-! ## Blocks -/

/-- How the next line of a block begins. -/
inductive Lead where
  /-- On a new line, unless the line before is ended already. -/
  | line (ended : Bool)
  /-- On the line of a dash, a colon or a question mark. -/
  | inline
  deriving DecidableEq, Repr

/-- The beginning of a line. -/
def Lead.chars (indent : Nat) : Lead → List Char
  | line ended => (if ended then [] else ['\n']) ++ pad indent
  | inline => [' ']

/-- The greatest size, in bytes, of a key on the line of its value. -/
def maxSimpleKey : Nat := 128

/-- Whether a key may stand on the line of its value. -/
def isSimpleKey (s : String) : Bool := !s.toList.any isBreak && s.utf8ByteSize ≤ maxSimpleKey

section
variable (wary : Bool)

/-- The key of an entry up to its colon, and how the value may begin. -/
def keyPiece (indent : Nat) : Node → Piece × Lead
  | .scalar tag s =>
    let key := scalarPiece wary (indent + 2) tag s
    if isSimpleKey s then (⟨key.chars ++ [':'], false⟩, .line false)
    else (⟨'?' :: ' ' :: (key.chars ++ Lead.chars indent (.line key.ended) ++ [':']), false⟩, .inline)
  | k => (⟨k.keyText.toList ++ [':'], false⟩, .line false)

mutual

/-- A node behind the mark of a block at depth `indent`. -/
def nodePiece (indent : Nat) (lead : Lead) : Node → Piece
  | .scalar tag s => ⟨[' '], false⟩ ++ scalarPiece wary (indent + 2) tag s
  | .sequence [] => ⟨[' ', '[', ']'], false⟩
  | .sequence (n :: ns) => itemsPiece (indent + 2) lead (n :: ns)
  | .mapping [] => ⟨[' ', '\x7b', '\x7d'], false⟩
  | .mapping (e :: es) => entriesPiece (indent + 2) lead (e :: es)
  | .aliasOf name _ => ⟨' ' :: '*' :: name.toList, false⟩

/-- The items of a sequence. -/
def itemsPiece (indent : Nat) (lead : Lead) : List Node → Piece
  | [] => ⟨[], lead = .line true⟩
  | n :: ns =>
    let item := nodePiece indent .inline n
    ⟨lead.chars indent ++ ['-'], false⟩ ++ item ++ itemsPiece indent (.line item.ended) ns

/-- The entries of a mapping. -/
def entriesPiece (indent : Nat) (lead : Lead) : List (Node × Node) → Piece
  | [] => ⟨[], lead = .line true⟩
  | (k, v) :: es =>
    let (key, after) := keyPiece wary indent k
    let value := nodePiece indent after v
    ⟨lead.chars indent, false⟩ ++ key ++ value ++ entriesPiece indent (.line value.ended) es

end

/-- The text of a document that is a mapping. -/
def documentText (entries : List (Node × Node)) : String :=
  let body := entriesPiece wary 0 (.line true) entries
  String.ofList (body.chars ++ if body.ended then [] else ['\n'])

end

end MuxFlow.Yaml
