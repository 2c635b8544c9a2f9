import MuxFlow.Number.Binary64
import MuxFlow.Number.Whole
import MuxFlow.Yaml.Timestamp

/-!
# What a plain scalar means

A scalar without a tag is a null, a truth value, a number or a time if it is
spelled like one, and a text otherwise. The first character tells which
spellings are worth trying. Numbers are whole numbers in several bases, with
underscores anywhere, or decimals.

A tag asks for a meaning; `resolve?` refuses a scalar that does not have it.
-/

namespace MuxFlow.Yaml

open Whole (spelledIn? splitSign unsigned?)

/-- The meaning of a scalar. -/
inductive Meaning where
  | null
  | bool (b : Bool)
  | int (n : Int)
  | float (x : Binary64)
  | infinity (negative : Bool)
  | nan
  | time (t : Timestamp)
  | text (s : String)
  deriving DecidableEq, Repr

namespace Meaning

/-- The tag of a meaning. -/
def tag : Meaning → String
  | null => "!!null"
  | bool _ => "!!bool"
  | int _ => "!!int"
  | float _ | infinity _ | nan => "!!float"
  | time _ => "!!timestamp"
  | text _ => "!!str"

/-- The words that mean something. -/
def ofWord? (s : String) : Option Meaning :=
  if s ∈ ["true", "True", "TRUE"] then some (bool true)
  else if s ∈ ["false", "False", "FALSE"] then some (bool false)
  else if s ∈ ["", "~", "null", "Null", "NULL"] then some null
  else if s ∈ [".nan", ".NaN", ".NAN"] then some nan
  else if s ∈ [".inf", ".Inf", ".INF", "+.inf", "+.Inf", "+.INF"] then some (infinity false)
  else if s ∈ ["-.inf", "-.Inf", "-.INF"] then some (infinity true)
  else none

end Meaning

/-! ## Whole numbers -/

/-- A number behind an optional sign, read by `read`, in 64 signed bits. -/
def signed? (read : List Char → Option Nat) (s : List Char) : Option Int :=
  let (negative, body) := splitSign s
  (read body).bind fun n =>
    if negative then if n ≤ Whole.signedLimit then some (-n) else none
    else if n < Whole.signedLimit then some (n : Int) else none

/-- A number in 64 bits without a sign. -/
def wide? (read : List Char → Option Nat) (s : List Char) : Option Int :=
  (read s).bind fun n => if n < Whole.limit then some (n : Int) else none

/-- A number in a given base, with at least one digit. -/
def inBase? (base : Nat) (ds : List Char) : Option Nat :=
  if ds.isEmpty then none else spelledIn? base ds

/-- A number behind a mark of its base, where the sign may also follow the
mark. -/
def marked? (mark : Char) (base : Nat) : List Char → Option Int
  | '0' :: c :: rest =>
    if c = mark then (signed? (inBase? base) rest).or (wide? (inBase? base) rest) else none
  | '-' :: '0' :: c :: rest => if c = mark then signed? (inBase? base) ('-' :: rest) else none
  | _ => none

/-! ## Decimals -/

/-- Splits off the digits at the beginning. -/
def spanDigits (s : List Char) : List Char × List Char :=
  (s.takeWhile Timestamp.isDigit, s.dropWhile Timestamp.isDigit)

/-- The power of ten at the end of a decimal; it may be missing. -/
def powerOf? : List Char → Option Int
  | [] => some 0
  | e :: rest =>
    if e = 'e' ∨ e = 'E' then
      let (negative, ds) := splitSign rest
      if ds.isEmpty ∨ ¬ds.all Timestamp.isDigit then none
      else
        let n : Int := Timestamp.spelled ds
        some (if negative then -n else n)
    else none

/-- A decimal: digits, perhaps a point and more digits, perhaps a power of ten.
There are digits before the point or after it. -/
def decimal? (s : List Char) : Option Decimal :=
  let (negative, body) := splitSign s
  let (whole, rest) := spanDigits body
  let (fraction, rest) :=
    match rest with
    | '.' :: rest => spanDigits rest
    | rest => ([], rest)
  if whole.isEmpty ∧ fraction.isEmpty then none
  else
    (powerOf? rest).map fun power =>
      ⟨negative, Timestamp.spelled (whole ++ fraction), power - fraction.length⟩

/-- The number of the binary format that a decimal stands for; none if it is too
great. -/
def floatOf? (s : List Char) : Option Meaning :=
  ((decimal? s).bind Binary64.ofDecimal?).map .float

/-- Whether every underscore stands between two digits; `before` tells whether
there is a digit in front. -/
def underscoresFit (before : Bool) : List Char → Bool
  | [] => true
  | ['_'] => false
  | '_' :: c :: rest =>
    before && Timestamp.isDigit c && underscoresFit true rest
  | c :: rest => underscoresFit (Timestamp.isDigit c) rest

/-! ## Resolution -/

/-- The spellings that the first character of a scalar leaves open. -/
inductive Hint where
  /-- None: the scalar is a text. -/
  | text
  /-- Only a word. -/
  | word
  /-- A decimal that begins with its point. -/
  | point
  /-- A number or a time. -/
  | number
  deriving DecidableEq, Repr

/-- What the first character of a scalar says. -/
def Hint.of : List Char → Hint
  | [] => .word
  | c :: _ =>
    if c = '.' then .point
    else if c = '+' ∨ c = '-' ∨ Timestamp.isDigit c then .number
    else if c ∈ ['y', 'Y', 'n', 'N', 't', 'T', 'f', 'F', 'o', 'O', '~'] then .word
    else .text

/-- The number that a scalar spells, underscores left out. -/
def numberOf? (s : List Char) : Option Meaning :=
  let s := s.filter (· ≠ '_')
  ((signed? unsigned? s).map .int)
    |>.or ((wide? unsigned? s).map .int)
    |>.or (floatOf? s)
    |>.or ((marked? 'b' 2 s).map .int)
    |>.or ((marked? 'o' 8 s).map .int)

/-- The meaning of a scalar. Times are looked for only if `times` allows it. -/
def meaning (times : Bool) (s : String) : Meaning :=
  let found :=
    match Hint.of s.toList with
    | .text => none
    | .word => Meaning.ofWord? s
    | .point =>
      (Meaning.ofWord? s).or
        (if underscoresFit false s.toList then floatOf? (s.toList.filter (· ≠ '_')) else none)
    | .number =>
      (Meaning.ofWord? s)
        |>.or (if times then (Timestamp.parse? s).map .time else none)
        |>.or (numberOf? s.toList)
  found.getD (.text s)

/-- The tag that a scalar without one gets. -/
def plainTag (s : String) : String := (meaning true s).tag

/-- The meaning of a scalar under a tag. A tag of its own kind leaves the text
alone. -/
def resolve? (tag s : String) : Option Meaning :=
  if tag = "!!str" then some (.text s)
  else if tag ∈ ["!!bool", "!!int", "!!float", "!!null", "!!timestamp"] then
    let m := meaning (tag = "!!timestamp") s
    if m.tag = tag then some m
    else
      match m with
      | .int n =>
        if tag = "!!float" ∧ n < Whole.signedLimit then
          (Binary64.ofDecimal? (.ofInt n)).map .float
        else none
      | _ => none
  else some (.text s)

end MuxFlow.Yaml
