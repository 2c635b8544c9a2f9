import MuxFlow.Json.Value
import MuxFlow.Text.Quoted

/-!
# Writing JSON

Values are written in two layouts. `compact` has no blanks and is safe inside
markup: the characters that mean something there are written as escapes.
`pretty` puts every item and every member on a line of its own and leaves those
characters alone, except under the names that a predicate picks out.
-/

namespace MuxFlow.Json

/-- The characters of a string literal that stand for one character; `markup`
asks for an escape where markup would be disturbed. -/
def escapeChar (markup : Bool) (c : Char) : List Char :=
  if c = '"' then ['\\', '"']
  else if c = '\\' then ['\\', '\\']
  else if c.toNat = 0x08 then ['\\', 'b']
  else if c.toNat = 0x0c then ['\\', 'f']
  else if c = '\n' then ['\\', 'n']
  else if c = '\r' then ['\\', 'r']
  else if c = '\t' then ['\\', 't']
  else if c.toNat < 0x20 ∨ c.toNat = 0x2028 ∨ c.toNat = 0x2029 ∨
      (markup ∧ (c = '<' ∨ c = '>' ∨ c = '&')) then
    '\\' :: 'u' :: Text.hexDigits 4 c.toNat
  else [c]

/-- A string literal. -/
def literal (markup : Bool) (s : String) : List Char :=
  '"' :: (s.toList.flatMap (escapeChar markup) ++ ['"'])

/-- The word for a truth value. -/
def boolWord (b : Bool) : List Char :=
  if b then ['t', 'r', 'u', 'e'] else ['f', 'a', 'l', 's', 'e']

/-- A value that holds no other value. -/
def scalar (markup : Bool) : Json → List Char
  | null => ['n', 'u', 'l', 'l']
  | bool b => boolWord b
  | num n => (Number.layout n).toList
  | str s => literal markup s
  | arr _ => ['[', ']']
  | obj _ => ['\x7b', '\x7d']

mutual

/-- A value without blanks. -/
def compact : Json → List Char
  | arr [] => ['[', ']']
  | arr (v :: vs) => '[' :: (compact v ++ (compactItems vs ++ [']']))
  | obj [] => ['\x7b', '\x7d']
  | obj ((name, v) :: ms) =>
    '\x7b' :: (literal true name ++ ':' :: (compact v ++ (compactMembers ms ++ ['\x7d'])))
  | v => scalar true v

/-- Further items, each after a comma. -/
def compactItems : List Json → List Char
  | [] => []
  | v :: vs => ',' :: (compact v ++ compactItems vs)

/-- Further members, each after a comma. -/
def compactMembers : List (String × Json) → List Char
  | [] => []
  | (name, v) :: ms =>
    ',' :: (literal true name ++ ':' :: (compact v ++ compactMembers ms))

end

/-- A new line at a depth: two blanks for every container around it. -/
def newline (depth : Nat) : List Char := '\n' :: List.replicate (2 * depth) ' '

section
variable (picked : String → Bool)

mutual

/-- A value on lines of its own. Under the names that `picked` picks out, strings
are escaped as in the compact layout. -/
def pretty (markup : Bool) (depth : Nat) : Json → List Char
  | arr [] => ['[', ']']
  | arr (v :: vs) =>
    '[' :: (newline (depth + 1) ++ (pretty markup (depth + 1) v ++
      (prettyItems markup (depth + 1) vs ++ (newline depth ++ [']']))))
  | obj [] => ['\x7b', '\x7d']
  | obj ((name, v) :: ms) =>
    '\x7b' :: (newline (depth + 1) ++ (literal markup name ++ ':' :: ' ' ::
      (pretty (markup || picked name) (depth + 1) v ++
        (prettyMembers markup (depth + 1) ms ++ (newline depth ++ ['\x7d'])))))
  | v => scalar markup v

/-- Further items, each after a comma. -/
def prettyItems (markup : Bool) (depth : Nat) : List Json → List Char
  | [] => []
  | v :: vs =>
    ',' :: (newline depth ++ (pretty markup depth v ++ prettyItems markup depth vs))

/-- Further members, each after a comma. -/
def prettyMembers (markup : Bool) (depth : Nat) : List (String × Json) → List Char
  | [] => []
  | (name, v) :: ms =>
    ',' :: (newline depth ++ (literal markup name ++ ':' :: ' ' ::
      (pretty (markup || picked name) depth v ++ prettyMembers markup depth ms)))

end

end

end MuxFlow.Json
