/-!
# Pieces of a text

Cutting a row of characters at every occurrence of one character, and finding
one row inside another. A cut keeps empty pieces, so putting the character back
between the pieces gives the row again.
-/

namespace MuxFlow.Text

/-- The pieces between the occurrences of a character; there is at least one. -/
def cutAt (mark : Char) : List Char → List (List Char)
  | [] => [[]]
  | c :: cs =>
    if c = mark then [] :: cutAt mark cs
    else
      match cutAt mark cs with
      | [] => [[c]]
      | piece :: pieces => (c :: piece) :: pieces

theorem cutAt_ne_nil (mark : Char) (cs : List Char) : cutAt mark cs ≠ [] := by
  cases cs with
  | nil => simp [cutAt]
  | cons c cs =>
    unfold cutAt
    split
    · simp
    · split <;> simp

/-- Putting the character back between the pieces undoes the cut. -/
theorem intercalate_cutAt (mark : Char) (cs : List Char) :
    [mark].intercalate (cutAt mark cs) = cs := by
  induction cs with
  | nil => rfl
  | cons c cs ih =>
    unfold cutAt
    split
    · rename_i h
      cases hcut : cutAt mark cs with
      | nil => exact absurd hcut (cutAt_ne_nil mark cs)
      | cons piece pieces =>
        rw [hcut] at ih
        simp [List.intercalate, List.intersperse, h] at ih ⊢
        exact ih
    · cases hcut : cutAt mark cs with
      | nil => exact absurd hcut (cutAt_ne_nil mark cs)
      | cons piece pieces =>
        rw [hcut] at ih
        cases pieces with
        | nil => simpa [List.intercalate, List.intersperse] using ih
        | cons p ps => simpa [List.intercalate, List.intersperse] using ih

/-- Whether a row of characters occurs in another, without a gap. -/
def occursIn (part : List Char) : List Char → Bool
  | [] => part.isEmpty
  | c :: cs => part.isPrefixOf (c :: cs) || occursIn part cs

theorem occursIn_iff (part cs : List Char) : occursIn part cs = true ↔ part <:+: cs := by
  induction cs with
  | nil => simp [occursIn]
  | cons c cs ih => simp [occursIn, List.infix_cons_iff, ih]

end MuxFlow.Text
