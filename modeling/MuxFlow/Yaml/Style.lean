import MuxFlow.Yaml.Scalar

/-!
# The look of a scalar

A scalar is written plain if nothing in it could be taken for something else,
between single quotes if it can stand there as it is, as a block of lines if it
has line breaks, and between double quotes, with escapes, in all other cases. A
text that would be read as another meaning is put between double quotes.
-/

namespace MuxFlow.Yaml

/-- The characters that end a line. -/
def isBreak (c : Char) : Bool :=
  c = '\n' || c = '\r' || c.toNat = 0x85 || c.toNat = 0x2028 || c.toNat = 0x2029

/-- The blanks within a line. -/
def isBlank (c : Char) : Bool := c = ' ' || c = '\t'

/-- The characters that can be written without an escape. -/
def isPrintable (c : Char) : Bool :=
  let n := c.toNat
  n = 0x0a || (0x20 ≤ n && n ≤ 0x7e) || (0xa0 ≤ n && n ≤ 0xd7ff) ||
    (0xe000 ≤ n && n ≤ 0xfffd && n ≠ 0xfeff)

/-- Whether two characters with the given properties stand next to each other. -/
def hasPair (p q : Char → Bool) (s : List Char) : Bool :=
  (s.zip s.tail).any fun (a, b) => p a && q b

/-- Whether the last character has a property. -/
def endsWith (p : Char → Bool) (s : List Char) : Bool := (s.getLast?.map p).getD false

/-- Whether the first character has a property. -/
def beginsWith (p : Char → Bool) (s : List Char) : Bool := (s.head?.map p).getD false

/-- The characters that no plain scalar begins with. -/
def openingMarks : List Char :=
  ['#', ',', '[', ']', '\x7b', '\x7d', '&', '*', '!', '|', '>', '\x27', '"', '%', '@', '\x60']

/-- Whether the rest of a scalar begins with a blank or is empty. -/
def blankOrEnd : List Char → Bool
  | [] => true
  | c :: _ => isBlank c

/-- Whether a colon before a blank, or a number sign after one, breaks a plain
scalar; the first character is not looked at. -/
def hasInnerMark : List Char → Bool
  | a :: b :: rest =>
    (b = ':' && blankOrEnd rest) || (b = '#' && (isBlank a || isBreak a)) ||
      hasInnerMark (b :: rest)
  | _ => false

/-- Whether a scalar would be taken for a part of the structure around it. -/
def hasMarks : List Char → Bool
  | [] => false
  | c :: rest =>
    let s := c :: rest
    s.take 3 = ['-', '-', '-'] || s.take 3 = ['.', '.', '.'] || openingMarks.contains c ||
      ((c = '-' || c = '?' || c = ':') && blankOrEnd rest) || hasInnerMark s

/-- How a scalar is written. -/
inductive Style where
  | plain
  | single
  | double
  | literal
  deriving DecidableEq, Repr

namespace Style

/-- Whether a scalar has characters that need an escape. -/
def needsEscape (s : List Char) : Bool := s.any fun c => c ≠ '\t' && !isPrintable c

/-- Whether a scalar may be written plain. -/
def plainFits (s : List Char) : Bool :=
  !(beginsWith (· = ' ') s || endsWith (· = ' ') s || s.any isBreak || s.contains '\t' ||
    needsEscape s || hasMarks s)

/-- Whether a scalar may stand between single quotes. -/
def singleFits (s : List Char) : Bool :=
  !(hasPair isBreak (· = ' ') s || hasPair (· = ' ') isBreak s || s.contains '\t' ||
    needsEscape s)

/-- Whether a scalar may be written as a block of lines. -/
def literalFits (s : List Char) : Bool :=
  !(s.isEmpty || endsWith (· = ' ') s || hasPair (· = ' ') isBreak s || needsEscape s)

/-- The style of a scalar; `quoted` asks for quotes. -/
def choose (quoted : Bool) (s : List Char) : Style :=
  if s.contains '\n' then if literalFits s then literal else double
  else if quoted then double
  else if plainFits s then plain
  else if singleFits s then single
  else double

end Style

/-- The words that other readers take for truth values. -/
def truthWords : List String :=
  ["y", "Y", "yes", "Yes", "YES", "on", "On", "ON", "n", "N", "no", "No", "NO", "off", "Off",
    "OFF"]

/-- Whether a text is made of digits and underscores. -/
def isDigits (s : List Char) : Bool := s.all fun c => Timestamp.isDigit c || c = '_'

/-- Whether a text is a minute or a second: one digit, or two of which the first
is at most five. -/
def isSixtieth : List Char → Bool
  | [b] => Timestamp.isDigit b
  | [a, b] => '0' ≤ a && a ≤ '5' && Timestamp.isDigit b
  | _ => false

/-- Whether the last part of a number in base 60 is well formed: a sixtieth and
perhaps a fraction. -/
def isLastSixtieth (s : List Char) : Bool :=
  isSixtieth (s.takeWhile (· ≠ '.')) && isDigits ((s.dropWhile (· ≠ '.')).drop 1)

/-- Whether a text is a number in base 60, which other readers take for one. -/
def isBase60 (s : List Char) : Bool :=
  let body := if beginsWith (fun c => c = '+' || c = '-') s then s.drop 1 else s
  match body.splitOn ':' with
  | whole :: last :: more =>
    let parts := last :: more
    beginsWith Timestamp.isDigit whole && isDigits whole &&
      parts.dropLast.all isSixtieth && isLastSixtieth (parts.getLastD [])
  | _ => false

/-- Whether a text has to be quoted so that it stays a text. A `wary` writer
thinks of other readers too. -/
def mistakable (wary : Bool) (s : String) : Bool :=
  plainTag s ≠ "!!str" || (wary && (truthWords.contains s || isBase60 s.toList))

end MuxFlow.Yaml
