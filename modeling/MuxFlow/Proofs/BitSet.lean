import Mathlib.Data.List.GetD
import Mathlib.Data.Nat.Bitwise
import MuxFlow.BitSet

/-!
# What is in a set of small numbers

A set is described by what it contains. A row of words contains `v` when bit
`v % 64` of word `v / 64` is set (`contains_eq`), where a word that the row does not
have is as good as one without bits. So growing the row changes nothing, adding a
number adds that number, and taking one out takes out that one.
-/

namespace MuxFlow.BitSet

theorem toNat_bit {i : Nat} (h : i < 64) : (bit i).toNat = 2 ^ i := by
  have hi : i.toUInt64.toNat % 64 = i := by
    rw [Nat.toUInt64_eq, UInt64.toNat_ofNat']
    omega
  rw [bit, UInt64.toNat_shiftLeft, hi, UInt64.toNat_one, Nat.one_shiftLeft]
  exact Nat.mod_eq_of_lt (Nat.pow_lt_pow_right (by decide) h)

theorem testBit_bit {i : Nat} (j : Nat) (h : i < 64) :
    (bit i).toNat.testBit j = decide (i = j) := by
  rw [toNat_bit h, Nat.testBit_two_pow]

/-- Setting one bit of a word. -/
theorem testBit_or_bit (w : UInt64) {i : Nat} (j : Nat) (h : i < 64) :
    (w ||| bit i).toNat.testBit j = (decide (j = i) || w.toNat.testBit j) := by
  rw [UInt64.toNat_or, Nat.testBit_or, testBit_bit j h, Bool.or_comm]
  simp only [eq_comm]

/-- Clearing one bit of a word. -/
theorem testBit_and_not_bit (w : UInt64) {i j : Nat} (h : i < 64) (hj : j < 64) :
    (w &&& ~~~bit i).toNat.testBit j = (decide (j ≠ i) && w.toNat.testBit j) := by
  have hnot : (~~~bit i).toNat.testBit j = !(bit i).toNat.testBit j := by
    have hlsb : (~~~(bit i).toBitVec).getLsbD j =
        (decide (j < 64) && !(bit i).toBitVec.getLsbD j) := BitVec.getLsbD_not
    rwa [decide_eq_true hj, Bool.true_and] at hlsb
  rw [UInt64.toNat_and, Nat.testBit_and, hnot, testBit_bit j h, Bool.and_comm]
  simp only [eq_comm, ne_eq, decide_not]

/-- Masking a word with one bit leaves something when the bit is set. -/
theorem and_bit_bne_zero (w : UInt64) {i : Nat} (h : i < 64) :
    (w &&& bit i != 0) = w.toNat.testBit i := by
  have hmask : (w &&& bit i).toNat = 2 ^ i * (w.toNat.testBit i).toNat := by
    rw [UInt64.toNat_and, toNat_bit h, Nat.and_comm, Nat.two_pow_and]
  have hzero : w &&& bit i = 0 ↔ w.toNat.testBit i = false := by
    rw [← UInt64.toNat_inj, hmask]
    simp
  rw [Bool.eq_iff_iff, bne_iff_ne, ne_eq, hzero, Bool.not_eq_false]

theorem contains_eq (s : BitSet) (v : Nat) :
    s.contains v = (s.words.getD (v / 64) 0).toNat.testBit (v % 64) := by
  unfold contains
  rw [List.getD_eq_getElem?_getD]
  cases s.words[v / 64]? with
  | some w => exact and_bit_bne_zero w (Nat.mod_lt v (by decide))
  | none => simp

@[simp] theorem contains_blank (n v : Nat) : (blank n).contains v = false := by
  simp [contains_eq, blank]

@[simp] theorem contains_grow (s : BitSet) (n v : Nat) : (s.grow n).contains v = s.contains v := by
  rw [contains_eq, contains_eq, grow]
  by_cases h : v / 64 < s.words.length
  · rw [List.getD_append _ _ _ _ h]
  · have hle : s.words.length ≤ v / 64 := Nat.le_of_not_lt h
    rw [List.getD_append_right _ _ _ _ hle, List.getD_eq_default _ _ hle]
    simp

theorem length_grow (s : BitSet) (n : Nat) : (s.grow n).words.length = max s.words.length n := by
  simp only [grow, List.length_append, List.length_replicate]
  omega

theorem length_insert (s : BitSet) (v : Nat) :
    (s.insert v).words.length = max s.words.length (v / 64 + 1) := by
  rw [insert, List.length_modify, length_grow]

theorem getD_modify {ws : List UInt64} {i : Nat} (h : i < ws.length) (f : UInt64 → UInt64)
    (j : Nat) : (ws.modify i f).getD j 0 = if i = j then f (ws.getD j 0) else ws.getD j 0 := by
  rw [List.getD_eq_getElem?_getD, List.getD_eq_getElem?_getD]
  split
  · next hij =>
      subst hij
      rw [List.getElem?_modify_eq, List.getElem?_eq_getElem h]
      rfl
  · next hij => rw [List.getElem?_modify_ne f ws hij]

/-- Adding a number adds that number. -/
theorem contains_insert (s : BitSet) (v w : Nat) :
    (s.insert v).contains w = (decide (w = v) || s.contains w) := by
  have hlen : v / 64 < (s.grow (v / 64 + 1)).words.length := by
    rw [length_grow]
    omega
  rw [← contains_grow s (v / 64 + 1) w, contains_eq, contains_eq, insert, getD_modify hlen]
  split
  · next hword =>
      have hbit : w % 64 = v % 64 ↔ w = v := by omega
      rw [testBit_or_bit _ _ (Nat.mod_lt v (by decide))]
      simp only [hbit]
  · next hword =>
      have hne : w ≠ v := fun h => hword (by rw [h])
      simp [hne]

/-- A number whose word the row does not have is not taken out. -/
theorem erase_eq_self {s : BitSet} {v : Nat} (h : s.words.length ≤ v / 64) : s.erase v = s := by
  rw [erase, List.modify_eq_self h]

/-- Taking a number out takes out that number. -/
theorem contains_erase (s : BitSet) (v w : Nat) :
    (s.erase v).contains w = (decide (w ≠ v) && s.contains w) := by
  by_cases hlen : v / 64 < s.words.length
  · rw [contains_eq, contains_eq, erase, getD_modify hlen]
    split
    · next hword =>
        have hbit : w % 64 ≠ v % 64 ↔ w ≠ v := by omega
        rw [testBit_and_not_bit _ (Nat.mod_lt v (by decide)) (Nat.mod_lt w (by decide))]
        simp only [hbit]
    · next hword =>
        have hne : w ≠ v := fun h => hword (by rw [h])
        simp [hne]
  · have hle : s.words.length ≤ v / 64 := Nat.le_of_not_lt hlen
    have habsent : s.contains v = false := by
      rw [contains_eq, List.getD_eq_default _ _ hle]
      simp
    rw [erase_eq_self hle]
    by_cases h : w = v
    · simp [h, habsent]
    · simp [h]

theorem contains_foldl_insert (vs : List Nat) (s : BitSet) (w : Nat) :
    (vs.foldl BitSet.insert s).contains w = (decide (w ∈ vs) || s.contains w) := by
  induction vs generalizing s with
  | nil => simp
  | cons v vs ih =>
      rw [List.foldl_cons, ih, contains_insert]
      by_cases h : w = v <;> simp [h]

/-- The set of a list contains what the list does. -/
@[simp] theorem contains_ofList (n : Nat) (vs : List Nat) (w : Nat) :
    (ofList n vs).contains w = decide (w ∈ vs) := by
  rw [ofList, contains_foldl_insert, contains_blank, Bool.or_false]

end MuxFlow.BitSet
