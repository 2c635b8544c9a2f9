import MuxFlow.Total

/-!
# Sets of small numbers

A set of naturals kept as a row of 64-bit words: number `v` is bit `v % 64` of
word `v / 64`. A row is made long enough for a greatest expected number and grows
when a greater one is added. `contains` is the view that every operation is
described by.

The elements are listed word by word, and within a word by taking off the lowest
bit that is set until none is left; they are counted by counting the bits of every
word.

Requests come as signed numbers. A negative one names no bit, so adding it is
refused, and a row of negative or unreasonable length cannot be made; the answer
to such a request is `none`.
-/

namespace MuxFlow

/-- A set of naturals as a row of words. -/
structure BitSet where
  words : List UInt64
  deriving DecidableEq, Repr

namespace BitSet

/-- The word with one bit set. -/
def bit (i : Nat) : UInt64 := 1 <<< i.toUInt64

/-- A set with no element and a given number of words. -/
def blank (words : Nat) : BitSet := ⟨List.replicate words 0⟩

/-- Whether a number is in the set. -/
def contains (s : BitSet) (v : Nat) : Bool :=
  match s.words[v / 64]? with
  | some w => w &&& bit (v % 64) != 0
  | none => false

/-- The same set with at least `n` words. -/
def grow (s : BitSet) (n : Nat) : BitSet :=
  ⟨s.words ++ List.replicate (n - s.words.length) 0⟩

/-- Adds a number. -/
def insert (s : BitSet) (v : Nat) : BitSet :=
  ⟨(s.grow (v / 64 + 1)).words.modify (v / 64) fun w => w ||| bit (v % 64)⟩

/-- Takes a number out. -/
def erase (s : BitSet) (v : Nat) : BitSet :=
  ⟨s.words.modify (v / 64) fun w => w &&& ~~~bit (v % 64)⟩

theorem toNat_pos {w : UInt64} (h : w ≠ 0) : 0 < w.toNat :=
  Nat.pos_of_ne_zero fun hzero => h (UInt64.toNat_inj.1 hzero)

theorem toNat_pred {w : UInt64} (h : w ≠ 0) : (w - 1).toNat = w.toNat - 1 :=
  UInt64.toNat_sub_of_le w 1 (UInt64.le_iff_toNat_le.2 (toNat_pos h))

/-- Masking a word with its predecessor makes it smaller. -/
theorem toNat_and_pred_lt {w : UInt64} (h : w ≠ 0) : (w &&& (w - 1)).toNat < w.toNat := by
  calc (w &&& (w - 1)).toNat ≤ (w - 1).toNat := by
        rw [UInt64.toNat_and]
        exact Nat.and_le_right
    _ = w.toNat - 1 := toNat_pred h
    _ < w.toNat := Nat.sub_one_lt_of_lt (toNat_pos h)

/-- The number of the lowest bit of a word that is set. -/
def lowest (w : UInt64) : Nat := w.toBitVec.ctz.toNat

/-- The numbers of the bits of a word that are set: the lowest one, and then those of
the word without it. -/
def bitsOf (w : UInt64) : List Nat :=
  if h : w = 0 then [] else lowest w :: bitsOf (w &&& (w - 1))
termination_by w.toNat
decreasing_by exact toNat_and_pred_lt h

/-- The elements, ascending. -/
def toList (s : BitSet) : List Nat :=
  s.words.zipIdx.flatMap fun (w, i) => (bitsOf w).map fun b => i * 64 + b

/-- The number of elements. -/
def size (s : BitSet) : Nat := total (s.words.map fun w => w.toBitVec.cpop.toNat)

/-- The set of the numbers of a list. -/
def ofList (words : Nat) (vs : List Nat) : BitSet :=
  vs.foldl BitSet.insert (blank words)

/-- The most words that a row can have. -/
def mostWords : Nat := 0x200000000000

/-- A set for numbers up to `max`, in 64-bit arithmetic. -/
def sized? (max : Int) : Option BitSet :=
  let words := ((max + 64).bmod 0x10000000000000000).tdiv 64
  if words < 0 || mostWords < words then none else some (blank words.toNat)

/-- Adds a number and tells whether it was absent. A number is refused when there
cannot be a row with its word. A negative one is refused only once the row is long
enough for its word, rounded toward zero. -/
def add (s : BitSet) (v : Int) : BitSet × Option Bool :=
  let word := v.tdiv 64
  if mostWords ≤ word then (s, none)
  else
    let s := s.grow (word + 1).toNat
    if v < 0 then (s, none)
    else if s.contains v.toNat then (s, some false)
    else (s.insert v.toNat, some true)

/-- Takes a number out. A negative number is refused where its word would be
looked up, which is the case unless the row is shorter than that. -/
def remove? (s : BitSet) (v : Int) : Option BitSet :=
  if 0 ≤ v then some (s.erase v.toNat)
  else if v.tdiv 64 < s.words.length then none
  else some s

/-- Whether a number is in the set; no negative number is. -/
def has (s : BitSet) (v : Int) : Bool := 0 ≤ v && s.contains v.toNat

end BitSet

end MuxFlow
