import MuxFlow.Text.Printable

/-!
# Quoted text

How a text is shown inside a message: between double quotes, on one line, with
everything that a reader could not see or could mistake written as an escape.
A single character is shown the same way between single quotes.
-/

namespace MuxFlow.Text

/-- The last `width` hexadecimal digits of `n`, in lower case, with leading
zeros. -/
def hexDigits (width n : Nat) : List Char :=
  (List.range width).reverse.map fun i => Nat.digitChar (n / Nat.pow 16 i % 16)

/-- The letters of the short escapes. -/
def shortEscape? (c : Char) : Option Char :=
  match c.toNat with
  | 0x07 => some 'a'
  | 0x08 => some 'b'
  | 0x09 => some 't'
  | 0x0a => some 'n'
  | 0x0b => some 'v'
  | 0x0c => some 'f'
  | 0x0d => some 'r'
  | _ => none

/-- An escape that gives the code point: two digits for the ASCII controls, four
or eight for the rest. -/
def codeEscape (c : Char) : List Char :=
  let n := c.toNat
  if n < 0x20 || n = 0x7f then '\\' :: 'x' :: hexDigits 2 n
  else if n < 0x10000 then '\\' :: 'u' :: hexDigits 4 n
  else '\\' :: 'U' :: hexDigits 8 n

/-- One character of a text that is quoted with `mark`. -/
def quoteChar (mark c : Char) : List Char :=
  if c = mark || c = '\\' then ['\\', c]
  else if isPrintable c then [c]
  else
    match shortEscape? c with
    | some letter => ['\\', letter]
    | none => codeEscape c

/-- A text between double quotes. -/
def quote (s : String) : String :=
  String.ofList ('"' :: (s.toList.flatMap (quoteChar '"') ++ ['"']))

/-- A character between single quotes. -/
def quoteOne (c : Char) : String :=
  String.ofList ('\x27' :: (quoteChar '\x27' c ++ ['\x27']))

end MuxFlow.Text
