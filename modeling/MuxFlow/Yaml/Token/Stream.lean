import MuxFlow.Yaml.Token.Block
import MuxFlow.Yaml.Token.Quoted
import MuxFlow.Yaml.Token.Tag

/-!
# The tokens of a text

A text is cut into tokens from left to right. Most tokens show what they are by
their first character. Two things need memory. Indentation: a line that is
indented more than its block opens one, and a line that is indented less closes
blocks (`Scan.unroll`). And keys: a scalar is known to be a key only when the
colon after it is met, on the same line, so the place where a key may have begun
is kept (`SimpleKey`), and the token that says so is put in there afterwards.
-/

namespace MuxFlow.Yaml

/-! ## Between tokens -/

/-- Where the way to the next token leads through. -/
inductive Passage where
  | blanks
  | comment
  /-- Blanks and line breaks between two comments. -/
  | bridge
  deriving DecidableEq, Repr

/-- How far a comment looks for another one below it. -/
def commentReach : Nat := 510

/-- Whether nothing but blanks and line breaks stands before the next
comment. -/
def commentFollows (rest : List Char) : Bool :=
  let gap := rest.takeWhile fun c => isBlank c || isBreak c
  gap.length ≤ commentReach && (rest.drop gap.length).head? = some '#'

/-- Passes over blanks, comments and line breaks. Tabs count as blanks only where
no key may begin; a new line allows one to begin, except in flow collections.
Gives the place of the next token and whether a key may begin there. -/
def toToken (flow : Bool) (way : Passage) (keyAllowed : Bool) (p : Place) :
    List Char → Cursor × Bool
  | [] => (⟨[], p⟩, keyAllowed)
  | c :: cs =>
    match way with
    | .comment =>
      if isBreak c then
        if commentFollows cs then toToken flow .bridge keyAllowed (p.after c) cs
        else toToken flow .blanks (keyAllowed || !flow) (p.after c) cs
      else toToken flow .comment keyAllowed (p.after c) cs
    | .bridge => toToken flow (if c = '#' then .comment else .bridge) keyAllowed (p.after c) cs
    | .blanks =>
      if p.column = 0 && c = byteOrderMark then toToken flow .blanks keyAllowed (p.after c) cs
      else if c = ' ' || (c = '\t' && (flow || !keyAllowed)) then
        toToken flow .blanks keyAllowed (p.after c) cs
      else if c = '#' then toToken flow .comment keyAllowed (p.after c) cs
      else if isBreak c then toToken flow .blanks (keyAllowed || !flow) (p.after c) cs
      else (⟨c :: cs, p⟩, keyAllowed)

/-- How far a comment may stand behind a token on the same line. -/
def lineCommentReach : Nat := 511

/-- Passes over a comment on the line of the token before. -/
def passLineComment (c : Cursor) : Cursor :=
  let blanks := c.rest.takeWhile isBlank
  if blanks.length ≤ lineCommentReach && (c.rest.drop blanks.length).head? = some '#' then
    c.skipWhile fun x => !isBreak x
  else c

/-! ## The state of the scan -/

/-- A place where a key may have begun. -/
structure SimpleKey where
  /-- Nothing but a key may stand there. -/
  required : Bool
  /-- The number of tokens before it. -/
  position : Nat
  place : Place
  deriving DecidableEq, Repr

/-- The greatest distance between the beginning of a key and its colon. -/
def maxKeyLength : Nat := 1024

/-- The greatest depth of blocks, and of flow collections. -/
def maxNesting : Nat := 10000

/-- A text that is being cut into tokens. -/
structure Scan where
  cursor : Cursor
  /-- How many flow collections are open. -/
  flowLevel : Nat := 0
  /-- The column of the innermost block; -1 outside of all blocks. -/
  indent : Int := -1
  /-- The columns of the blocks around it. -/
  indents : List Int := []
  keyAllowed : Bool := true
  /-- The key that may have begun in the innermost flow collection, and in those
  around it. -/
  keys : List (Option SimpleKey) := [none]
  /-- The tokens so far, last first. -/
  tokens : List Token := []
  /-- How many there are. -/
  count : Nat := 0

namespace Scan

/-- Whether the scan is inside a flow collection. -/
def inFlow (s : Scan) : Bool := s.flowLevel ≠ 0

/-- Adds a token. -/
def push (t : Token) (s : Scan) : Scan :=
  { s with tokens := t :: s.tokens, count := s.count + 1 }

/-- Puts a token in after the first `position` ones. -/
def insertAt (position : Nat) (t : Token) (s : Scan) : Scan :=
  let later := s.count - position
  { s with tokens := s.tokens.take later ++ t :: s.tokens.drop later, count := s.count + 1 }

/-- The innermost key that may have begun. -/
def key? (s : Scan) : Option SimpleKey := s.keys.head?.join

/-- Forgets the innermost key; it is a fault if one was required. -/
def dropKey (s : Scan) : Option Scan :=
  match s.key? with
  | some k => if k.required then none else some { s with keys := none :: s.keys.tail }
  | none => some s

/-- Remembers that a key may begin here. -/
def noteKey (s : Scan) : Option Scan :=
  if s.keyAllowed then
    s.dropKey.map fun s =>
      let required := !s.inFlow && s.indent = s.cursor.column
      { s with keys := some ⟨required, s.count, s.cursor.place⟩ :: s.keys.tail }
  else some s

/-- Closes the blocks that are indented more than a column. -/
def closeBlocks (column : Int) : Int → List Int → Int × List Int × Nat
  | indent, [] => (indent, [], 0)
  | indent, outer :: outers =>
    if column < indent then
      let (i, is, n) := closeBlocks column outer outers
      (i, is, n + 1)
    else (indent, outer :: outers, 0)

/-- Ends the blocks that a line at a column does not belong to. -/
def unroll (column : Int) (s : Scan) : Scan :=
  if s.inFlow then s
  else
    let (indent, indents, n) := closeBlocks column s.indent s.indents
    { s with
      indent, indents
      tokens := List.replicate n Token.blockEnd ++ s.tokens, count := s.count + n }

/-- Begins a block at a column if it is indented more than the one around it; its
token goes in after the first `position` ones. -/
def roll (column : Nat) (position : Nat) (t : Token) (s : Scan) : Option Scan :=
  if s.inFlow || (column : Int) ≤ s.indent then some s
  else if maxNesting ≤ s.indents.length then none
  else
    some (insertAt position t { s with indent := column, indents := s.indent :: s.indents })

/-- Whether a key that may have begun can still be one. -/
def stillValid (s : Scan) (k : SimpleKey) : Bool :=
  k.place.line = s.cursor.place.line && s.cursor.place.index ≤ k.place.index + maxKeyLength

/-- Adds a token of so many characters. -/
def take (n : Nat) (t : Token) (s : Scan) : Scan :=
  push t { s with cursor := s.cursor.advanceBy n }

/-! ## Tokens -/

/-- Whatever begins outside of all blocks: a directive or the mark of a
document. -/
def outermost (s : Scan) : Option Scan :=
  (s.unroll (-1)).dropKey.map fun s => { s with keyAllowed := false }

/-- The end of the text. -/
def finish (s : Scan) : Option Scan :=
  s.outermost.map (push .streamEnd)

/-- A bracket that opens a flow collection. -/
def openFlow (t : Token) (s : Scan) : Option Scan := do
  let s ← s.noteKey
  if maxNesting ≤ s.flowLevel then none
  else
    let s := { s with flowLevel := s.flowLevel + 1, keys := none :: s.keys, keyAllowed := true }
    some (take 1 t s)

/-- A bracket that closes a flow collection. -/
def closeFlow (t : Token) (s : Scan) : Option Scan := do
  let s ← s.dropKey
  let s := if s.inFlow then { s with flowLevel := s.flowLevel - 1, keys := s.keys.tail } else s
  some (take 1 t { s with keyAllowed := false })

/-- The comma between the items of a flow collection. -/
def flowEntry (s : Scan) : Option Scan :=
  s.dropKey.map fun s => take 1 .flowEntry { s with keyAllowed := true }

/-- The dash before an item of a block sequence. -/
def blockEntry (s : Scan) : Option Scan := do
  let s ←
    if s.inFlow then some s
    else if s.keyAllowed then s.roll s.cursor.column s.count .blockSequenceStart
    else none
  let s ← s.dropKey
  some (take 1 .blockEntry { s with keyAllowed := true })

/-- The question mark before a key. -/
def explicitKey (s : Scan) : Option Scan := do
  let s ←
    if s.inFlow then some s
    else if s.keyAllowed then s.roll s.cursor.column s.count .blockMappingStart
    else none
  let s ← s.dropKey
  some (take 1 .key { s with keyAllowed := !s.inFlow })

/-- The colon before a value. If a key may have begun, it has. -/
def value (s : Scan) : Option Scan :=
  match s.key? with
  | some k =>
    if s.stillValid k then do
      let s ← (s.insertAt k.position .key).roll k.place.column k.position .blockMappingStart
      some (take 1 .value { s with keys := none :: s.keys.tail, keyAllowed := false })
    else if k.required then none
    else bare { s with keys := none :: s.keys.tail }
  | none => bare s
where
  /-- A colon without a key on its line. -/
  bare (s : Scan) : Option Scan := do
    let s ←
      if s.inFlow then some s
      else if s.keyAllowed then s.roll s.cursor.column s.count .blockMappingStart
      else none
    some (take 1 .value { s with keyAllowed := !s.inFlow })

/-- Something that may begin a key and leaves the cursor where it ends. -/
def content (read : Cursor → Option (Token × Cursor)) (s : Scan) : Option Scan := do
  let s ← s.noteKey
  let (t, c) ← read s.cursor
  some (push t { s with cursor := c, keyAllowed := false })

/-- A plain scalar. A line break after it allows a key. -/
def plain (s : Scan) : Option (Scan × Bool) := do
  let s ← s.noteKey
  let r ← plainScalar? s.inFlow (s.indent + 1).toNat s.cursor
  some (push (.scalar r.text true) { s with cursor := r.cursor, keyAllowed := r.newLine }, r.newLine)

/-- A block scalar. -/
def block (literal : Bool) (s : Scan) : Option Scan := do
  let s ← s.dropKey
  let (text, c) ← blockScalar? literal s.indent s.cursor
  some (push (.scalar text false) { s with cursor := c, keyAllowed := true })

/-- The marks that no plain scalar begins with, and three that may begin one. -/
def indicators : List Char :=
  ['-', '?', ':', ',', '[', ']', '\x7b', '\x7d', '#', '&', '*', '!', '|', '>', '\x27', '"', '%',
    '@', '\x60']

/-- Whether a plain scalar begins with a character, by what follows it. -/
def beginsPlain (flow : Bool) (c : Char) (rest : List Char) : Bool :=
  (!isBlank c && !isBreak c && !indicators.contains c) ||
    (c = '-' && !blankAhead rest) || (!flow && (c = '?' || c = ':') && !gapAhead rest)
where
  /-- Whether a blank comes next. -/
  blankAhead : List Char → Bool
    | [] => false
    | c :: _ => isBlank c

/-- Passes over a comment behind the token just read. -/
def passComment (s : Scan) : Scan := { s with cursor := passLineComment s.cursor }

/-- Reads the token that begins with a character. -/
def tokenAt (c : Char) (rest : List Char) (s : Scan) : Option Scan :=
  if c = '[' then (s.openFlow .flowSequenceStart).map passComment
  else if c = '\x7b' then (s.openFlow .flowMappingStart).map passComment
  else if c = ']' then (s.closeFlow .flowSequenceEnd).map passComment
  else if c = '\x7d' then (s.closeFlow .flowMappingEnd).map passComment
  else if c = ',' then s.flowEntry.map passComment
  else if c = '-' && gapAhead rest then s.blockEntry
  else if c = '?' && (s.inFlow || gapAhead rest) then s.explicitKey.map passComment
  else if c = ':' && (s.inFlow || gapAhead rest) then s.value.map passComment
  else if c = '*' then (s.content (named .aliasOf)).map passComment
  else if c = '&' then (s.content (named .anchor)).map passComment
  else if c = '!' then (s.content tag?).map passComment
  else if c = '|' && !s.inFlow then s.block true
  else if c = '>' && !s.inFlow then s.block false
  else if c = '\x27' then (s.content (quoted true)).map passComment
  else if c = '"' then (s.content (quoted false)).map passComment
  else if beginsPlain s.inFlow c rest then
    s.plain.map fun (s, newLine) => if newLine then s else s.passComment
  else none
where
  /-- A name behind a mark. -/
  named (make : String → Token) (c : Cursor) : Option (Token × Cursor) :=
    (anchorName? c).map fun (name, c) => (make name, c)
  /-- A quoted scalar. -/
  quoted (single : Bool) (c : Cursor) : Option (Token × Cursor) :=
    (quotedScalar? single c).map fun (text, c) => (.scalar text false, c)

/-- Reads the next token. -/
def next (s : Scan) : Option Scan :=
  let (cursor, keyAllowed) := toToken s.inFlow .blanks s.keyAllowed s.cursor.place s.cursor.rest
  let s := unroll cursor.column { s with cursor, keyAllowed }
  match cursor.rest with
  | [] => s.finish
  | c :: rest =>
    if cursor.column = 0 && c = '%' then do
      let s ← s.outermost
      let (t, cursor) ← directive? s.cursor
      some (push t { s with cursor })
    else if cursor.column = 0 && documentMark '-' cursor.rest then
      s.outermost.map (take 3 .documentStart)
    else if cursor.column = 0 && documentMark '.' cursor.rest then
      s.outermost.map (take 3 .documentEnd)
    else s.tokenAt c rest

/-- Reads tokens to the end; `total` is the size of the whole text. -/
def run (total : Nat) (s : Scan) : List Token :=
  match s.next with
  | none => (Token.fault :: s.tokens).reverse
  | some s' =>
    if _h : s.cursor.place.index < s'.cursor.place.index ∧ s'.cursor.place.index ≤ total ∧
        s'.tokens.head? ≠ some .streamEnd then run total s'
    else s'.tokens.reverse
termination_by total - s.cursor.place.index

end Scan

/-- The tokens of a text. -/
def Token.ofText (text : List Char) : List Token := Scan.run text.length { cursor := ⟨text, {}⟩ }

end MuxFlow.Yaml
