import MuxFlow.Text.Pieces
import MuxFlow.Text.Width

/-!
# Themes

How the parts of a listing are put on the screen. Colours do not show in a text,
so all that a theme decides here is blanks: a tab takes four of them under every
theme, and a styled part is a block, whose lines are as wide as the widest of
them. A styled title has a blank on each side.
-/

namespace MuxFlow.Screen

open Text (cutAt width)

/-- The looks that listings come in. -/
inductive Theme where
  /-- For files and pipes. -/
  | plain
  /-- For a terminal. -/
  | styled
  deriving DecidableEq, Repr

/-- Four blanks for every tab. -/
def expandTabs (cs : List Char) : List Char :=
  cs.flatMap fun c => if c = '\t' then List.replicate 4 ' ' else [c]

/-- A line feed for every pair of a carriage return and a line feed. -/
def joinBreaks : List Char → List Char
  | '\r' :: '\n' :: rest => '\n' :: joinBreaks rest
  | c :: rest => c :: joinBreaks rest
  | [] => []

/-- A line with blanks up to a width. -/
def padded (columns : Nat) (line : List Char) : List Char :=
  line ++ List.replicate (columns - width line) ' '

/-- A text whose lines all have the width of the widest. -/
def block (cs : List Char) : List Char :=
  let lines := cutAt '\n' cs
  ['\n'].intercalate (lines.map (padded ((lines.map width).foldl max 0)))

namespace Theme

/-- A part of a listing. -/
def render (t : Theme) (s : String) : String :=
  match t with
  | plain => String.ofList (expandTabs s.toList)
  | styled => String.ofList (block (joinBreaks (expandTabs s.toList)))

/-- The title of a listing. -/
def title (t : Theme) (s : String) : String :=
  match t with
  | plain => t.render s
  | styled => " " ++ t.render s ++ " "

end Theme

end MuxFlow.Screen
