import MuxFlow.Screen.Theme

/-!
# A field to type into

One line of text with a cursor. The field shows forty columns; a wider text is
seen through a window, which is moved only as far as it takes to keep the cursor
in it. The keys are those of the usual line editors.
-/

namespace MuxFlow.Screen

open Text (charWidth width isSpace isControl)

/-- A key that was pressed, by its name, with the characters that it types. A key
message that consists of typed characters has these as its name. -/
structure Key where
  name : String
  typed : List Char := []
  deriving DecidableEq, Repr

/-- Typed text. -/
def Key.ofText (s : String) : Key := ⟨s, s.toList⟩

/-- A text with a cursor and a window; the cursor stands before the character
with its number. -/
structure TextField where
  value : List Char := []
  cursor : Nat := 0
  /-- The first character in the window. -/
  first : Nat := 0
  /-- The first character behind the window. -/
  last : Nat := 0
  deriving DecidableEq, Repr

namespace TextField

/-- The columns of a field. -/
def columns : Nat := 40

/-- What stands in front of a field. -/
def mark : String := "/ "

/-- What an empty field shows. -/
def placeholder : String := "filter muxes"

/-! ## The window -/

/-- How many characters fit into a window that begins with them; the last one
may be under the cursor, which has a column of its own. -/
def fitAfter (used : Nat) : List Char → Nat
  | [] => 0
  | c :: cs =>
    if used ≤ columns then
      (if used + charWidth c ≤ columns + 1 then 1 else 0) + fitAfter (used + charWidth c) cs
    else 0

/-- How many characters, nearest first, fit into a window that ends with them. -/
def fitBefore (used : Nat) : List Char → Nat
  | [] => 0
  | c :: cs =>
    if used < columns ∧ used + charWidth c ≤ columns then 1 + fitBefore (used + charWidth c) cs
    else 0

/-- Moves the window to the cursor, if the cursor is outside. -/
def scroll (f : TextField) : TextField :=
  if width f.value ≤ columns then { f with first := 0, last := f.value.length }
  else if f.cursor < f.first then
    { f with
      first := f.cursor
      last := f.cursor + fitAfter 0 (f.value.drop f.cursor) }
  else if min f.last f.value.length ≤ f.cursor then
    { f with
      first := f.cursor - fitBefore 0 ((f.value.take f.cursor).drop 1).reverse
      last := f.cursor }
  else { f with last := min f.last f.value.length }

/-- Moves the cursor. -/
def moveTo (n : Nat) (f : TextField) : TextField :=
  scroll { f with cursor := min n f.value.length }

/-! ## Words -/

/-- A row of characters without the blanks at its beginning and the word after
them. -/
def dropWord (cs : List Char) : List Char :=
  (cs.dropWhile isSpace).dropWhile fun c => !isSpace c

/-- Where the word before the cursor begins. -/
def wordStart (f : TextField) : Nat := (dropWord (f.value.take f.cursor).reverse).length

/-- Where the word at a place or after it ends. -/
def wordEnd (f : TextField) (n : Nat) : Nat :=
  f.value.length - (dropWord (f.value.drop n)).length

/-- Deletes the word before the cursor. The blank before the word stays, except
at the beginning of the text. -/
def deleteWordBefore (f : TextField) : TextField :=
  if f.cursor = 0 then f
  else
    let start := f.wordStart
    let moved := if start ≤ 1 then f.moveTo 0 else (f.moveTo (start - 1)).moveTo start
    { moved with value := f.value.take moved.cursor ++ f.value.drop f.cursor }

/-- Deletes the word after the cursor, unless the cursor is on the last
character. -/
def deleteWordAfter (f : TextField) : TextField :=
  if f.value.length ≤ f.cursor + 1 then f
  else
    let stop := f.wordEnd (f.cursor + 1)
    let moved := f.moveTo stop
    moveTo f.cursor { moved with value := f.value.take f.cursor ++ f.value.drop stop }

/-! ## Keys -/

/-- The characters of typed text that a field takes. Tabs and line ends become
blanks; other controls and the replacement character are left out. -/
def accepted (cs : List Char) : List Char :=
  cs.filterMap fun c =>
    if c.toNat = 0xfffd then none
    else if c = '\r' ∨ c = '\n' ∨ c = '\t' then some ' '
    else if isControl c then none
    else some c

/-- Puts characters in front of the cursor. -/
def insert (cs : List Char) (f : TextField) : TextField :=
  scroll { f with
    value := f.value.take f.cursor ++ accepted cs ++ f.value.drop f.cursor
    cursor := f.cursor + (accepted cs).length }

/-- Deletes the character before the cursor. -/
def deleteBefore (f : TextField) : TextField :=
  if f.cursor = 0 then f
  else moveTo (f.cursor - 1) { f with value := f.value.eraseIdx (f.cursor - 1) }

/-- Deletes the text before the cursor. -/
def clearBefore (f : TextField) : TextField :=
  moveTo 0 { f with value := f.value.drop f.cursor, first := 0 }

/-- Deletes the text after the cursor. -/
def clearAfter (f : TextField) : TextField :=
  moveTo f.cursor { f with value := f.value.take f.cursor }

/-- What a key with a name of its own does. -/
def command? (name : String) : Option (TextField → TextField) :=
  match name with
  | "alt+backspace" | "ctrl+w" => some deleteWordBefore
  | "backspace" | "ctrl+h" => some deleteBefore
  | "alt+left" | "ctrl+left" | "alt+b" => some fun f => f.moveTo f.wordStart
  | "left" | "ctrl+b" => some fun f => f.moveTo (f.cursor - 1)
  | "alt+right" | "ctrl+right" | "alt+f" => some fun f => f.moveTo (f.wordEnd f.cursor)
  | "right" | "ctrl+f" => some fun f => f.moveTo (f.cursor + 1)
  | "home" | "ctrl+a" => some (moveTo 0)
  | "delete" | "ctrl+d" => some fun f => { f with value := f.value.eraseIdx f.cursor }
  | "end" | "ctrl+e" => some fun f => f.moveTo f.value.length
  | "ctrl+k" => some clearAfter
  | "ctrl+u" => some clearBefore
  | "alt+delete" | "alt+d" => some deleteWordAfter
  | "ctrl+v" | "down" | "ctrl+n" | "up" | "ctrl+p" => some id
  | _ => none

/-- The field after a key. -/
def press (f : TextField) (k : Key) : TextField :=
  scroll ((command? k.name).getD (insert k.typed) f)

/-! ## The look of a field -/

/-- The field on the screen: what is in the window, and the cursor. At the end of
the text the cursor stands on a blank. -/
def view (f : TextField) : String :=
  if f.value.isEmpty then mark ++ String.ofList (padded (columns + 1) placeholder.toList)
  else
    let shown := (f.value.take f.last).drop f.first
    let inside := f.cursor - f.first < shown.length
    let fill :=
      if width shown ≤ columns then columns - width shown + (if inside then 1 else 0) else 0
    mark ++ String.ofList
      (shown ++ (if inside then [] else [' ']) ++ List.replicate fill ' ')

end TextField

end MuxFlow.Screen
