import MuxFlow.Yaml.Cursor
import MuxFlow.Yaml.Scalar
import MuxFlow.Yaml.Token.Basic

/-!
# Names, tags and directives

Anchors and aliases have names of letters, digits, dashes and underscores. A tag
is a handle between exclamation marks and a suffix, or a suffix alone; what a
handle stands for can be said by a directive in front of a document.
-/

namespace MuxFlow.Yaml

/-- The characters of names. -/
def isNameChar (c : Char) : Bool :=
  ('0' ≤ c && c ≤ '9') || ('A' ≤ c && c ≤ 'Z') || ('a' ≤ c && c ≤ 'z') || c = '_' || c = '-'

/-- The characters of tag suffixes besides those of names. -/
def suffixMarks : List Char :=
  [';', '/', '?', ':', '@', '&', '=', '+', '$', ',', '.', '!', '~', '*', '\x27', '(', ')', '[',
    ']']

/-- Splits off the name at a cursor. -/
def nameAt (c : Cursor) : String × Cursor :=
  (String.ofList (c.rest.takeWhile isNameChar), c.skipWhile isNameChar)

/-- The marks that may follow the name of an anchor without a gap. -/
def afterName : List Char := ['?', ':', ',', ']', '\x7d', '%', '@', '\x60']

/-- Reads the name of an anchor or an alias after its mark. -/
def anchorName? (c : Cursor) : Option (String × Cursor) :=
  let (name, c) := nameAt c.advance
  if name = "" then none
  else if gapAhead c.rest || (c.rest.head?.map afterName.contains).getD false then some (name, c)
  else none

/-- The byte that an escape of a suffix gives. -/
def escapedByte? : List Char → Option Nat
  | '%' :: a :: b :: _ => do return (← Whole.digitIn? 16 a) * 16 + (← Whole.digitIn? 16 b)
  | _ => none

/-- The number of bytes of the character that begins with a byte. -/
def byteWidth? (b : Nat) : Option Nat :=
  if b < 0x80 then some 1
  else if 0xc0 ≤ b ∧ b < 0xe0 then some 2
  else if 0xe0 ≤ b ∧ b < 0xf0 then some 3
  else if 0xf0 ≤ b ∧ b < 0xf8 then some 4
  else none

/-- The bytes after the first one of an escaped character. -/
def tailBytes? : Nat → List Char → Option (List UInt8)
  | 0, _ => some []
  | n + 1, rest => do
    let b ← escapedByte? rest
    if 0x80 ≤ b ∧ b < 0xc0 then return b.toUInt8 :: (← tailBytes? n (rest.drop 3))
    else none

/-- The escaped character that a suffix goes on with, and its size in the text. -/
def escapedChar? (rest : List Char) : Option (List Char × Nat) := do
  let b ← escapedByte? rest
  let width ← byteWidth? b
  let tail ← tailBytes? (width - 1) (rest.drop 3)
  return (Text.Source.lossy (Text.Source.ofBytes (b.toUInt8 :: tail)), 3 * width)

/-- Reads on in a suffix; `said` is what it says so far, last character first. -/
def suffixRest? (said : List Char) (c : Cursor) : Option (String × Cursor) :=
  match _h : c.rest with
  | [] => some (String.ofList said.reverse, c)
  | x :: rest =>
    if x = '%' then
      match escapedChar? (x :: rest) with
      | none => none
      | some (cs, n) => suffixRest? (cs.reverse ++ said) ⟨rest.drop (n - 1), (c.advanceBy n).place⟩
    else if isNameChar x || suffixMarks.contains x then
      suffixRest? (x :: said) ⟨rest, c.place.after x⟩
    else some (String.ofList said.reverse, c)
termination_by c.rest.length
decreasing_by
  all_goals
    simp only [_h, List.length_drop, List.length_cons]
    omega

/-- Reads a suffix that begins with `head`; there has to be something of it. -/
def suffix? (head : String) (c : Cursor) : Option (String × Cursor) := do
  let (suffix, after) ← suffixRest? (head.toList.drop 1).reverse c
  if head = "" ∧ after.place.index = c.place.index then none else some (suffix, after)

/-- Reads a handle: an exclamation mark, a name and perhaps another mark. -/
def handleAt (c : Cursor) : String × Cursor :=
  let (name, after) := nameAt c.advance
  if after.startsWith '!' then ("!" ++ name ++ "!", after.advance) else ("!" ++ name, after)

/-- Whether a handle is complete. -/
def isHandle (s : String) : Bool := 1 < s.length && s.toList.getLast? = some '!'

/-- Reads a tag. A mere exclamation mark is a tag that says nothing. -/
def tag? (c : Cursor) : Option (Token × Cursor) := do
  let (token, after) ←
    if (c.advance).startsWith '<' then do
      let (suffix, after) ← suffix? "" (c.advanceBy 2)
      if after.startsWith '>' then some (Token.tag "" suffix, after.advance) else none
    else do
      let (handle, after) := handleAt c
      if isHandle handle then do
        let (suffix, after) ← suffix? "" after
        some (Token.tag handle suffix, after)
      else do
        let (suffix, after) ← suffix? handle after
        some (if suffix = "" then Token.tag "" "!" else Token.tag "!" suffix, after)
  if gapAhead after.rest then some (token, after) else none

/-- Reads a number of one or two digits. -/
def versionNumber? (c : Cursor) : Option (Nat × Cursor) :=
  let ds := c.rest.takeWhile Timestamp.isDigit
  if ds.isEmpty || 2 < ds.length then none
  else some (Timestamp.spelled ds, c.advanceBy ds.length)

/-- Reads a directive and the end of its line. -/
def directive? (c : Cursor) : Option (Token × Cursor) := do
  let (name, c) := nameAt c.advance
  if name = "" || !gapAhead c.rest then none
  else
    let (token, c) ←
      if name = "YAML" then do
        let (major, c) ← versionNumber? (c.skipWhile isBlank)
        if c.startsWith '.' then do
          let (minor, c) ← versionNumber? c.advance
          some (Token.version major minor, c)
        else none
      else if name = "TAG" then do
        let c := c.skipWhile isBlank
        if !c.startsWith '!' then none
        else
          let (handle, c) := handleAt c
          if handle ≠ "!" ∧ !isHandle handle then none
          else if !(c.rest.head?.map isBlank).getD false then none
          else do
            let (meaning, c) ← suffix? "" (c.skipWhile isBlank)
            if gapAhead c.rest then some (Token.tagHandle handle meaning, c) else none
      else none
    return (token, ← restOfLine? c)

end MuxFlow.Yaml
