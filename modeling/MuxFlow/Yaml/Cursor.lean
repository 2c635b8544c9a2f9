import MuxFlow.Text.Source
import MuxFlow.Yaml.Style

/-!
# Places in a text

A YAML text is looked at through a `Cursor`: what is left of it, and where that
begins. Lines and columns carry the structure of a document, so a place knows
them. Before a text is read, its line breaks are made alike (`unifyBreaks`) and
its characters are checked (`readable?`).
-/

namespace MuxFlow.Yaml

/-- A place in a text, counted in characters from zero. -/
structure Place where
  index : Nat := 0
  line : Nat := 0
  column : Nat := 0
  deriving DecidableEq, Repr

/-- The place after a character. -/
def Place.after (p : Place) (c : Char) : Place :=
  if isBreak c then ⟨p.index + 1, p.line + 1, 0⟩ else ⟨p.index + 1, p.line, p.column + 1⟩

/-- The rest of a text and the place where it begins. -/
structure Cursor where
  rest : List Char
  place : Place := {}
  deriving DecidableEq, Repr

namespace Cursor

/-- Passes over one character. -/
def advance : Cursor → Cursor
  | ⟨[], p⟩ => ⟨[], p⟩
  | ⟨c :: cs, p⟩ => ⟨cs, p.after c⟩

/-- Passes over a number of characters. -/
def advanceBy : Nat → Cursor → Cursor
  | 0, c => c
  | n + 1, c => advanceBy n c.advance

/-- Passes over the characters that have a property. -/
def skipWhile (p : Char → Bool) (c : Cursor) : Cursor :=
  advanceBy (c.rest.takeWhile p).length c

/-- The column of the next character. -/
def column (c : Cursor) : Nat := c.place.column

/-- Whether the rest begins with a character. -/
def startsWith (c : Cursor) (x : Char) : Bool := c.rest.head? = some x

/-- Whether a line ends here. -/
def atLineEnd (c : Cursor) : Bool :=
  match c.rest with
  | [] => true
  | x :: _ => isBreak x

end Cursor

/-- Passes over blanks, a comment and the end of the line; none if something
else stands there. -/
def restOfLine? (c : Cursor) : Option Cursor :=
  let c := c.skipWhile isBlank
  let c := if c.startsWith '#' then c.skipWhile fun x => !isBreak x else c
  if c.atLineEnd then some c.advance else none

/-- Whether a blank, a line break or the end comes next. -/
def gapAhead : List Char → Bool
  | [] => true
  | c :: _ => isBlank c || isBreak c

/-- Whether a line with the mark of a document begins here: three times the same
character, and a gap. -/
def documentMark (c : Char) (rest : List Char) : Bool :=
  rest.take 3 = [c, c, c] && gapAhead (rest.drop 3)

/-- Whether the mark of a beginning or of an end of a document stands at a
place. -/
def atDocumentMark (p : Place) (rest : List Char) : Bool :=
  p.column = 0 && (documentMark '-' rest || documentMark '.' rest)

/-- Makes line breaks alike; the two that Unicode adds keep their identity. -/
def unifyBreaks : List Char → List Char
  | [] => []
  | '\r' :: '\n' :: cs => '\n' :: unifyBreaks cs
  | c :: cs => (if c = '\r' || c.toNat = 0x85 then '\n' else c) :: unifyBreaks cs

/-- The mark of the byte order, which may begin a text. -/
def byteOrderMark : Char := Char.ofNat 0xfeff

/-- Whether a character may occur in a text. -/
def isAllowed (c : Char) : Bool :=
  let n := c.toNat
  n = 0x09 || n = 0x0a || n = 0x0d || (0x20 ≤ n && n ≤ 0x7e) || n = 0x85 ||
    (0xa0 ≤ n && n ≤ 0xd7ff) || (0xe000 ≤ n && n ≤ 0xfffd) || 0x10000 ≤ n

/-- The text of a file, if it is one that can be read. -/
def readable? (source : Text.Source) : Option (List Char) :=
  source.strict?.bind fun cs =>
    let cs := if cs.head? = some byteOrderMark then cs.tail else cs
    if cs.all isAllowed then some (unifyBreaks cs) else none

end MuxFlow.Yaml
