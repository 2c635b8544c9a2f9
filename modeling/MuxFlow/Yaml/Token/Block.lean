import MuxFlow.Yaml.Cursor
import MuxFlow.Yaml.Scalar

/-!
# Block scalars

A block scalar is a header, `|` or `>`, and the indented lines below it. The
header may give the depth of the lines and say what happens to the line breaks
at the end: one is kept, all are kept with `+`, none with `-`. Lines of a `>`
block are folded into one another unless they begin with a blank.
-/

namespace MuxFlow.Yaml

/-- What happens to the line breaks at the end of a block. -/
inductive Chomping where
  | strip
  | clip
  | keep
  deriving DecidableEq, Repr

/-- The header of a block scalar; a depth of zero means that the lines show it. -/
structure BlockHeader where
  chomping : Chomping := .clip
  depth : Nat := 0
  deriving DecidableEq, Repr

namespace BlockHeader

/-- What a character of a header says about line breaks. -/
def chomping? (c : Char) : Option Chomping :=
  if c = '+' then some .keep else if c = '-' then some .strip else none

/-- Reads the signs of a header, in either order; a depth of zero cannot be
asked for. -/
def read? (c : Cursor) : Option (BlockHeader × Cursor) :=
  match c.rest with
  | [] => some ({}, c)
  | x :: rest =>
    match chomping? x with
    | some chomping =>
      match rest.head?.bind Timestamp.digit? with
      | some 0 => none
      | some depth => some ({ chomping, depth }, c.advanceBy 2)
      | none => some ({ chomping }, c.advance)
    | none =>
      match Timestamp.digit? x with
      | some 0 => none
      | some depth =>
        match rest.head?.bind chomping? with
        | some chomping => some ({ chomping, depth }, c.advanceBy 2)
        | none => some ({ depth }, c.advance)
      | none => some ({}, c)

end BlockHeader

/-- What stands between two lines of a block that are not empty. -/
structure Indentation where
  cursor : Cursor
  /-- The line breaks, last first. -/
  breaks : List Char
  /-- The greatest column that blanks lead to. -/
  deepest : Nat

/-- Passes over the blanks of indentation, up to a column if one is given, and
over empty lines; none when a tab stands in place of a blank. -/
def indentation? (indent : Option Nat) (breaks : List Char) (deepest : Nat) (p : Place) :
    List Char → Option Indentation
  | [] => some ⟨⟨[], p⟩, breaks, max deepest p.column⟩
  | c :: cs =>
    let inside := (indent.map fun n => decide (p.column < n)).getD true
    if inside && c = ' ' then indentation? indent breaks deepest (p.after c) cs
    else if inside && c = '\t' then none
    else if isBreak c then
      indentation? indent (c :: breaks) (max deepest p.column) (p.after c) cs
    else some ⟨⟨c :: cs, p⟩, breaks, max deepest p.column⟩

/-- The content of a block that is being read. -/
structure BlockText where
  /-- What the block says so far, last character first. -/
  said : List Char := []
  /-- The line break after the last line. -/
  ending : Option Char := none
  /-- The line breaks of the empty lines after it, last first. -/
  empty : List Char := []
  /-- Whether the last line began with a blank. -/
  blankLine : Bool := false

namespace BlockText

/-- What leads from the last line to one that begins with a blank or not. -/
def joint (literal : Bool) (t : BlockText) (blankNext : Bool) : List Char :=
  if !literal && !t.blankLine && !blankNext && t.ending = some '\n' then
    if t.empty.isEmpty then [' '] else t.empty
  else t.empty ++ t.ending.toList

/-- What the block says in the end. -/
def finish (t : BlockText) : Chomping → List Char
  | .strip => t.said
  | .clip => t.ending.toList ++ t.said
  | .keep => t.empty ++ t.ending.toList ++ t.said

/-- Reads the lines at depth `indent`; `total` is the size of the whole text. -/
def lines? (literal : Bool) (indent total : Nat) (t : BlockText) (c : Cursor) :
    Option (BlockText × Cursor) :=
  match c.rest with
  | [] => some (t, c)
  | x :: _ =>
    if c.column ≠ indent then some (t, c)
    else
      let line := c.rest.takeWhile fun y => !isBreak y
      let after := c.advanceBy line.length
      let said := line.reverse ++ (t.joint literal (isBlank x) ++ t.said)
      let ending := after.rest.head?
      match indentation? (some indent) [] 0 after.advance.place after.advance.rest with
      | none => none
      | some gap =>
        let t := { said, ending, empty := gap.breaks, blankLine := isBlank x }
        if _h : c.place.index < gap.cursor.place.index ∧ gap.cursor.place.index ≤ total then
          lines? literal indent total t gap.cursor
        else some (t, gap.cursor)
termination_by total - c.place.index

end BlockText

/-- Reads the block scalar whose header begins at the cursor, in a block that is
indented to column `parent`. -/
def blockScalar? (literal : Bool) (parent : Int) (c : Cursor) : Option (String × Cursor) := do
  let (header, c) ← BlockHeader.read? c.advance
  let c ← restOfLine? c
  let given := if header.depth = 0 then none else some ((max parent 0).toNat + header.depth)
  let gap ← indentation? given [] 0 c.place c.rest
  let indent := given.getD (max (max gap.deepest (parent + 1).toNat) 1)
  let total := gap.cursor.place.index + gap.cursor.rest.length
  let (t, c) ← BlockText.lines? literal indent total { empty := gap.breaks } gap.cursor
  return (String.ofList (t.finish header.chomping).reverse, c)

end MuxFlow.Yaml
