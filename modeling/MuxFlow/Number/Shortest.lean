import MuxFlow.Number.Binary64

/-!
# The shortest decimal

A number of the binary format is written with as few decimal digits as tell it
from its neighbours, and among those with the digits nearest to it. The numbers
that read back as a given one form an interval around it; for one digit, two
digits and so on, the two decimals next to the number are tried, and the first
that lies in the interval is taken.
-/

namespace MuxFlow.Shortest

/-- An interval around a number: the number, its lower and its upper end as
multiples of one unit, the unit as a fraction, and whether the ends belong to
it. -/
structure Interval where
  value : Nat
  low : Nat
  high : Nat
  num : Nat
  den : Nat
  closed : Bool

/-- What reads back as `m · 2 ^ e`: everything up to half way to the neighbours.
The neighbour below a power of two is only half as far away. The ends are ties,
which go to the even mantissa. -/
def interval (m : Nat) (e : Int) : Interval :=
  let narrow := m = Binary64.leastFull ∧ e ≠ Binary64.minExponent
  let e := e - 2
  { value := 4 * m
    low := if narrow then 4 * m - 1 else 4 * m - 2
    high := 4 * m + 2
    num := Nat.pow 2 e.toNat
    den := Nat.pow 2 (-e).toNat
    closed := m % 2 = 0 }

/-- A multiple of a power of ten, in units of an interval: `n · 10 ^ k` is
`fst / snd` units. -/
def inUnits (i : Interval) (n : Nat) (k : Int) : Nat × Nat :=
  (n * Nat.pow 10 k.toNat * i.den, i.num * Nat.pow 10 (-k).toNat)

/-- Whether a multiple of a power of ten lies in an interval. -/
def Interval.holds (i : Interval) (n : Nat) (k : Int) : Bool :=
  let (a, b) := inUnits i n k
  if i.closed then i.low * b ≤ a && a ≤ i.high * b else i.low * b < a && a < i.high * b

/-- The greatest multiple of a power of ten that is not above the number. -/
def floorAt (i : Interval) (k : Int) : Nat :=
  i.value * i.num * Nat.pow 10 (-k).toNat / (i.den * Nat.pow 10 k.toNat)

/-- Whether the multiple below is nearer than the one above; half way between,
the even one counts as nearer. -/
def lowerIsNearer (i : Interval) (n : Nat) (k : Int) : Bool :=
  let (a, b) := inUnits i n k
  let (a', _) := inUnits i (n + 1) k
  let below := i.value * b - a
  let above := a' - i.value * b
  below < above || (below = above && n % 2 = 0)

/-- The multiple of a power of ten in the interval that is next to the number. -/
def candidate? (i : Interval) (k : Int) : Option Nat :=
  let n := floorAt i k
  match i.holds n k, i.holds (n + 1) k with
  | true, true => some (if lowerIsNearer i n k then n else n + 1)
  | true, false => some n
  | false, true => some (n + 1)
  | false, false => none

/-- The number of digits before the point, of a positive number. -/
def pointOf (i : Interval) : Int :=
  let whole := i.value * i.num / i.den
  if whole ≠ 0 then Binary64.decimalLength whole
  else
    -- The zeros after the point are those that the reciprocal has digits, less one.
    let inverse := (i.den + i.value * i.num - 1) / (i.value * i.num)
    1 - (Binary64.decimalLength (inverse - 1) : Int)

/-- Drops final zeros. -/
def trimZeros : Nat → Nat → Int → Nat × Int
  | 0, n, k => (n, k)
  | fuel + 1, n, k => if n ≠ 0 ∧ n % 10 = 0 then trimZeros fuel (n / 10) (k + 1) else (n, k)

/-- The shortest decimal digits of `m · 2 ^ e`, as `digits · 10 ^ exponent`. -/
def digits (m : Nat) (e : Int) : Nat × Int :=
  if m = 0 then (0, 0)
  else
    let i := interval m e
    let p := pointOf i
    let tries := (List.range 17).map fun (n : Nat) => p - (n + 1)
    match tries.findSome? fun k => (candidate? i k).map fun n => (n, k) with
    | some (n, k) => trimZeros 20 n k
    | none => (floorAt i (p - 17), p - 17)

end MuxFlow.Shortest

namespace MuxFlow.Binary64

/-- The shortest decimal that reads back as the number. -/
def toDecimal (x : Binary64) : Decimal :=
  let (n, k) := Shortest.digits x.mantissa x.exponent
  ⟨x.negative, n, k⟩

end MuxFlow.Binary64
