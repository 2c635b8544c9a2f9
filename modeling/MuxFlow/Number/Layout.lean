import MuxFlow.Number.Shortest

/-!
# Numbers as text

Numbers are written positionally where that is readable and with an exponent
where it would be mostly zeros: below `10 ^ -6` and from `10 ^ 21` on. The
exponent always has a sign and no leading zeros. Zero keeps its sign.
-/

namespace MuxFlow.Number

/-- Positional notation begins here: the first digit stands at most this many
places after the point. -/
def leastPoint : Int := -5

/-- Positional notation ends here: at most this many digits before the point. -/
def greatestPoint : Int := 21

/-- Digits with a point before position `p`, zeros added where digits lack. -/
def positional (ds : List Char) (p : Int) : String :=
  if p ≤ 0 then
    "0." ++ String.ofList (List.replicate (-p).toNat '0' ++ ds)
  else if ds.length ≤ p.toNat then
    String.ofList (ds ++ List.replicate (p.toNat - ds.length) '0')
  else String.ofList (ds.take p.toNat ++ '.' :: ds.drop p.toNat)

/-- One digit, the rest after the point, and the exponent. -/
def scientific (ds : List Char) (p : Int) : String :=
  let e := p - 1
  let fraction := if ds.length ≤ 1 then [] else '.' :: ds.drop 1
  String.ofList (ds.take 1 ++ fraction) ++ (if e < 0 then "e-" else "e+") ++
    toString e.natAbs

/-- A written number in the layout of documents. -/
def layout (d : Decimal) : String :=
  let body :=
    if d.digits = 0 then "0"
    else
      let ds := Nat.toDigits 10 d.digits
      let p := d.exponent + ds.length
      if leastPoint ≤ p ∧ p ≤ greatestPoint then positional ds p else scientific ds p
  if d.negative then "-" ++ body else body

/-- A number of the binary format, in the fewest digits. -/
def text (x : Binary64) : String := layout x.toDecimal

end MuxFlow.Number
