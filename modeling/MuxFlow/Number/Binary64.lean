/-!
# Numbers with 53 binary digits

Numbers in documents are written in decimal and meant in the 64-bit binary
format. A `Decimal` is a written number; a `Binary64` is a finite number of the
format, as `± mantissa · 2 ^ exponent`. `Binary64.ofDecimal?` takes the number
of the format that is nearest to a written one, a tie going to the even
mantissa. All arithmetic is on whole numbers and exact.
-/

namespace MuxFlow

/-- A written number, `± digits · 10 ^ exponent`. -/
structure Decimal where
  negative : Bool
  digits : Nat
  exponent : Int
  deriving DecidableEq, Repr

/-- A whole number as a written one. -/
def Decimal.ofInt (n : Int) : Decimal := ⟨n < 0, n.natAbs, 0⟩

/-- A finite number of the 64-bit format: the mantissa has at most 53 binary
digits, and 53 of them unless the exponent is the least one, -1074. -/
structure Binary64 where
  negative : Bool
  mantissa : Nat
  exponent : Int
  deriving DecidableEq, Repr

namespace Binary64

/-- The exponent of the smallest numbers. -/
def minExponent : Int := -1074

/-- The exponent of the greatest numbers. -/
def maxExponent : Int := 971

/-- The least mantissa of 53 binary digits. -/
def leastFull : Nat := 0x10000000000000

/-- Zero, which has a sign. -/
def zero (negative : Bool) : Binary64 := ⟨negative, 0, minExponent⟩

/-- The quotient of two whole numbers as a whole number, to the nearest, a tie
going to the even one. -/
def roundDiv (num den : Nat) : Nat :=
  let q := num / den
  let r := num % den
  if den < 2 * r then q + 1
  else if den = 2 * r then q + q % 2
  else q

/-- A fraction over a power of two: `num / (den · 2 ^ e)`. -/
def scale (num den : Nat) (e : Int) : Nat × Nat :=
  if 0 ≤ e then (num, den * Nat.pow 2 e.toNat) else (num * Nat.pow 2 (-e).toNat, den)

/-- The exponent at which a positive fraction has 53 binary digits in front of
the point, or the least exponent if it has fewer even there. -/
def exponentOf (num den : Nat) : Int :=
  let e : Int := (num.log2 : Int) - den.log2 - 52
  let (n, d) := scale num den e
  max (if n / d < leastFull then e - 1 else e) minExponent

/-- The number nearest to a positive fraction; `none` beyond the greatest. -/
def ofFraction? (negative : Bool) (num den : Nat) : Option Binary64 :=
  let e := exponentOf num den
  let (n, d) := scale num den e
  let m := roundDiv n d
  let (m, e) := if m = 2 * leastFull then (leastFull, e + 1) else (m, e)
  if maxExponent < e then none else some ⟨negative, m, e⟩

/-- The number of decimal digits of a whole number. -/
def decimalLength (n : Nat) : Nat := (Nat.toDigits 10 n).length

/-- The number nearest to a written one; `none` beyond the greatest. Numbers far
outside the range of the format are settled by their length alone. -/
def ofDecimal? (d : Decimal) : Option Binary64 :=
  if d.digits = 0 then some (zero d.negative)
  else
    let magnitude := d.exponent + decimalLength d.digits
    if 310 < magnitude then none
    else if magnitude < -330 then some (zero d.negative)
    else if 0 ≤ d.exponent then ofFraction? d.negative (d.digits * Nat.pow 10 d.exponent.toNat) 1
    else ofFraction? d.negative d.digits (Nat.pow 10 (-d.exponent).toNat)

/-- The whole number toward zero, if the number is below `2 ^ 63` in size. -/
def truncate? (x : Binary64) : Option Int :=
  let size := if 0 ≤ x.exponent then x.mantissa * Nat.pow 2 x.exponent.toNat
    else x.mantissa / Nat.pow 2 (-x.exponent).toNat
  if size < 0x8000000000000000 then some (if x.negative then -size else size) else none

end Binary64

end MuxFlow
