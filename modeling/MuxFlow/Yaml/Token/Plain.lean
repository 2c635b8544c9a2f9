import MuxFlow.Yaml.Cursor

/-!
# Plain scalars

A plain scalar ends where something else begins: at a colon before a gap, at a
number sign after one, at the marks of flow collections inside them, at a mark
of a document, and at a line that is not indented enough. Line breaks inside it
are folded: a single one becomes a blank, and of several the first is dropped.
-/

namespace MuxFlow.Yaml

/-- Line breaks and blanks between the words of a scalar. -/
structure Gap where
  /-- Blanks before the first line break, last first. -/
  blanks : List Char := []
  /-- Whether a line break has been passed. -/
  broken : Bool := false
  /-- The first line break; none if it was escaped. -/
  first : Option Char := none
  /-- Further line breaks, last first. -/
  more : List Char := []

namespace Gap

/-- The gap with one more blank; blanks at the beginning of a line do not
count. -/
def addBlank (g : Gap) (c : Char) : Gap :=
  if g.broken then g else { g with blanks := c :: g.blanks }

/-- The gap with one more line break. -/
def addBreak (g : Gap) (c : Char) : Gap :=
  if g.broken then { g with more := c :: g.more }
  else { blanks := [], broken := true, first := some c }

/-- What a gap amounts to, last character first. -/
def folded (g : Gap) : List Char :=
  if g.broken then
    match g.first with
    | some '\n' => if g.more.isEmpty then [' '] else g.more
    | some c => g.more ++ [c]
    | none => g.more
  else g.blanks

end Gap

/-- The marks that end a plain scalar in a flow collection. -/
def flowMarks : List Char := [',', '?', '[', ']', '\x7b', '\x7d']

/-- Whether a character ends a plain scalar, by what follows it. -/
def endsPlain (flow : Bool) (c : Char) (rest : List Char) : Bool :=
  (c = ':' && gapAhead rest) || (flow && flowMarks.contains c)

/-- The result of reading a plain scalar. -/
structure PlainScalar where
  text : String
  cursor : Cursor
  /-- Whether line breaks after the scalar have been passed. -/
  newLine : Bool

/-- Reads on in a plain scalar. `said` is what it says so far, last character
first, and `gap` what has been passed since then; a word is being read when
`inWord` holds. Gives none when a tab stands in place of indentation. -/
def plainRest? (flow : Bool) (indent : Nat) (said : List Char) (gap : Gap) (inWord : Bool)
    (p : Place) : List Char → Option PlainScalar
  | [] => some ⟨String.ofList said.reverse, ⟨[], p⟩, gap.broken⟩
  | c :: cs =>
    let stop : Option PlainScalar :=
      some ⟨String.ofList said.reverse, ⟨c :: cs, p⟩, gap.broken⟩
    if isBlank c then
      if gap.broken && decide (p.column < indent) && c = '\t' then none
      else plainRest? flow indent said (gap.addBlank c) false (p.after c) cs
    else if isBreak c then plainRest? flow indent said (gap.addBreak c) false (p.after c) cs
    else if !inWord && ((!said.isEmpty && !flow && decide (p.column < indent)) ||
        atDocumentMark p (c :: cs) || c = '#') then stop
    else if endsPlain flow c cs then stop
    else plainRest? flow indent (c :: (gap.folded ++ said)) {} true (p.after c) cs

/-- Reads the plain scalar at a cursor inside a block that is indented by less
than `indent`. -/
def plainScalar? (flow : Bool) (indent : Nat) (c : Cursor) : Option PlainScalar :=
  plainRest? flow indent [] {} false c.place c.rest

end MuxFlow.Yaml
