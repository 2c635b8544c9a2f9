/-!
# Whole numbers in several bases

The digits of a whole number may be binary, octal, decimal or hexadecimal; the
beginning tells which. `ofText` also allows an underscore between two digits and
says why it refuses a text.
-/

namespace MuxFlow.Whole

/-- The value of a digit in a base up to sixteen. -/
def digitIn? (base : Nat) (c : Char) : Option Nat :=
  let value :=
    if '0' ≤ c ∧ c ≤ '9' then c.toNat - 0x30
    else if 'a' ≤ c ∧ c ≤ 'f' then c.toNat - 0x57
    else if 'A' ≤ c ∧ c ≤ 'F' then c.toNat - 0x37
    else base
  if value < base then some value else none

/-- The number that a row of digits spells. -/
def spelledIn? (base : Nat) (ds : List Char) : Option Nat :=
  ds.foldlM (fun n c => (digitIn? base c).map fun d => n * base + d) 0

/-- The base that the beginning of a number tells, if it tells one, and the rest
of the number. A mere zero means eight. -/
def splitBase : List Char → Option Nat × List Char
  | '0' :: b :: d :: rest =>
    if b = 'b' ∨ b = 'B' then (some 2, d :: rest)
    else if b = 'o' ∨ b = 'O' then (some 8, d :: rest)
    else if b = 'x' ∨ b = 'X' then (some 16, d :: rest)
    else (some 8, b :: d :: rest)
  | '0' :: rest => (some 8, rest)
  | ds => (none, ds)

/-- A number without a sign. -/
def unsigned? (s : List Char) : Option Nat :=
  if s.isEmpty then none else spelledIn? ((splitBase s).1.getD 10) (splitBase s).2

/-- Splits off a sign; true is for minus. -/
def splitSign : List Char → Bool × List Char
  | '-' :: rest => (true, rest)
  | '+' :: rest => (false, rest)
  | s => (false, s)

/-- Why a text is no whole number. -/
inductive Refusal where
  /-- It is not spelled like one. -/
  | malformed
  /-- It has no place in 64 bits. -/
  | outOfRange
  deriving DecidableEq, Repr

/-- The wording of a refusal. -/
def Refusal.message : Refusal → String
  | malformed => "invalid syntax"
  | outOfRange => "value out of range"

/-- The number of values of 64 bits. -/
def limit : Nat := 0x10000000000000000

/-- The number of values of 64 bits that are not negative, if one bit is the
sign. -/
def signedLimit : Nat := 0x8000000000000000

/-- Reads digits from left to right, underscores left out. What is met first
decides on the refusal: a character that is no digit, or a number that grows
beyond 64 bits. -/
def digits (base n : Nat) : List Char → Except Refusal Nat
  | [] => .ok n
  | c :: cs =>
    if c = '_' then digits base n cs
    else
      match digitIn? base c with
      | none => .error .malformed
      | some d => if n * base + d < limit then digits base (n * base + d) cs else .error .outOfRange

/-- Whether every underscore has a digit before and after it; `before` tells
whether there is one in front. -/
def underscoresFit (before : Bool) : List Char → Bool
  | [] => before
  | c :: cs => if c = '_' then before && underscoresFit false cs else underscoresFit true cs

/-- The number without a sign that a text spells, in 64 bits. -/
def natOfText (s : List Char) : Except Refusal Nat := do
  if s.isEmpty then .error .malformed
  else
    let (base, ds) := splitBase s
    let n ← digits (base.getD 10) 0 ds
    if underscoresFit base.isSome ds then .ok n else .error .malformed

/-- The number that a text spells, in 64 signed bits. -/
def ofText (s : List Char) : Except Refusal Int := do
  let (negative, body) := splitSign s
  let n ← natOfText body
  if negative then if n ≤ signedLimit then .ok (-n) else .error .outOfRange
  else if n < signedLimit then .ok n else .error .outOfRange

end MuxFlow.Whole
