/-!
# Totals

The sum of a list of natural numbers, as a measure: what a work list still has
to do is the total of what its items have to do.
-/

namespace MuxFlow

/-- The sum of a list. -/
def total : List Nat → Nat
  | [] => 0
  | n :: ns => n + total ns

@[simp] theorem total_nil : total [] = 0 := rfl

@[simp] theorem total_cons (n : Nat) (ns : List Nat) : total (n :: ns) = n + total ns := rfl

@[simp] theorem total_append (ms ns : List Nat) : total (ms ++ ns) = total ms + total ns := by
  induction ms with
  | nil => simp
  | cons m ms ih => rw [List.cons_append, total_cons, total_cons, ih, Nat.add_assoc]

end MuxFlow
