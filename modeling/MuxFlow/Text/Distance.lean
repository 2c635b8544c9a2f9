/-!
# The distance of two texts

How many items have to be put in, taken out or exchanged to make one list from
another. The distances of a list to all beginnings of another form a row; the row
of a longer list follows from that of a shorter one.
-/

namespace MuxFlow.Text

/-- The rest of the row for a list that is longer by `a`: `left` is the last
distance of the new row, `corner` and `above` are those of the old one. -/
def longerRow {α : Type} [DecidableEq α] (a : α) (left corner : Nat) :
    List α → List Nat → List Nat
  | b :: bs, up :: ups =>
    let here := if a = b then corner else 1 + min left (min corner up)
    here :: longerRow a here up bs ups
  | _, _ => []

/-- The row of a list that is longer by `a`. -/
def nextRow {α : Type} [DecidableEq α] (bs : List α) (row : List Nat) (a : α) : List Nat :=
  match row with
  | [] => []
  | corner :: above => (corner + 1) :: longerRow a (corner + 1) corner bs above

/-- The distance of two lists. -/
def distance {α : Type} [DecidableEq α] (as bs : List α) : Nat :=
  ((as.foldl (nextRow bs) (List.range (bs.length + 1))).getLast?).getD 0

end MuxFlow.Text
