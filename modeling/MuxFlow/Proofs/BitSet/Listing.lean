import Mathlib.Data.List.Nodup
import Mathlib.Tactic.Ring
import MuxFlow.Proofs.BitSet

/-!
# Listing and counting a set of small numbers

The elements of a set are found by taking words apart. A number less one differs from the
number itself in the lowest bit that is set and in those below it, so masking a word with
its predecessor takes off the lowest bit and leaves the others (`testBit_and_pred`). The loop
that does so until nothing is left therefore comes to every bit that is set, from the lowest
to the highest (`mem_bitsOf_iff`, `bitsOf_ascending`), and it comes to as many as there are
(`length_bitsOf`).

Word by word, the list of the elements is ascending and has what the set contains, and
counting bits gives its length.
-/

namespace MuxFlow.BitSet

/-! ## One word -/

theorem testBit_lowest {w : UInt64} (h : w ≠ 0) : w.toNat.testBit (lowest w) = true :=
  BitVec.getLsbD_true_ctz_of_ne_zero fun hzero => h (UInt64.toBitVec_inj.1 hzero)

theorem lowest_le {w : UInt64} {i : Nat} (h : w.toNat.testBit i = true) : lowest w ≤ i := by
  by_contra hlt
  have hfalse : w.toNat.testBit i = false := BitVec.getLsbD_false_of_lt_ctz (Nat.lt_of_not_le hlt)
  exact Bool.false_ne_true (hfalse.symm.trans h)

theorem lt_of_testBit {w : UInt64} {i : Nat} (h : w.toNat.testBit i = true) : i < 64 :=
  BitVec.lt_of_getLsbD h

/-- A number with a lowest bit is an odd multiple of the power of two that the bit stands
for. -/
theorem exists_eq_of_lowest {n t : Nat} (hbit : n.testBit t = true)
    (hlow : ∀ j < t, n.testBit j = false) : ∃ q, n = 2 ^ (t + 1) * q + 2 ^ t := by
  have hmod : n % 2 ^ t = 0 := by
    apply Nat.eq_of_testBit_eq
    intro j
    rw [Nat.testBit_mod_two_pow, Nat.zero_testBit]
    by_cases hj : j < t
    · rw [hlow j hj, Bool.and_false]
    · rw [decide_eq_false hj, Bool.false_and]
  have hodd : n / 2 ^ t % 2 = 1 := by
    rw [← Nat.zero_add t, ← Nat.testBit_div_two_pow, Nat.testBit_zero] at hbit
    exact of_decide_eq_true hbit
  refine ⟨n / 2 ^ t / 2, ?_⟩
  calc n = 2 ^ t * (n / 2 ^ t) := (Nat.mul_div_cancel' (Nat.dvd_of_mod_eq_zero hmod)).symm
    _ = 2 ^ t * (2 * (n / 2 ^ t / 2) + 1) := by rw [← hodd, Nat.div_add_mod]
    _ = 2 ^ (t + 1) * (n / 2 ^ t / 2) + 2 ^ t := by ring

/-- Below the lowest bit, a number less one has all bits; above it, it has the same ones. -/
theorem testBit_pred {n t : Nat} (hbit : n.testBit t = true)
    (hlow : ∀ j < t, n.testBit j = false) (i : Nat) :
    (n - 1).testBit i = if i ≤ t then decide (i < t) else n.testBit i := by
  obtain ⟨q, rfl⟩ := exists_eq_of_lowest hbit hlow
  have hpos : 0 < 2 ^ t := Nat.two_pow_pos t
  have hlt : 2 ^ t < 2 ^ (t + 1) := Nat.pow_lt_pow_right (by decide) (Nat.lt_succ_self t)
  have hpred : 2 ^ (t + 1) * q + 2 ^ t - 1 = 2 ^ (t + 1) * q + (2 ^ t - 1) := by omega
  rw [hpred, Nat.testBit_two_pow_mul_add _ (by omega), Nat.testBit_two_pow_mul_add _ hlt]
  simp only [Nat.lt_succ_iff]
  split
  · rw [Nat.testBit_two_pow_sub_one]
  · rfl

/-- Masking a word with its predecessor takes off the lowest bit. -/
theorem testBit_and_pred {w : UInt64} (h : w ≠ 0) (i : Nat) :
    (w &&& (w - 1)).toNat.testBit i = (w.toNat.testBit i && decide (i ≠ lowest w)) := by
  have hlow : ∀ j < lowest w, w.toNat.testBit j = false := by
    intro j hj
    by_contra htrue
    exact absurd (lowest_le (Bool.of_not_eq_false htrue)) (Nat.not_le_of_lt hj)
  rw [UInt64.toNat_and, toNat_pred h, Nat.testBit_and, testBit_pred (testBit_lowest h) hlow]
  rcases Nat.lt_trichotomy i (lowest w) with hi | rfl | hi
  · rw [hlow i hi, Bool.false_and, Bool.false_and]
  · simp
  · rw [if_neg (Nat.not_le_of_lt hi), Bool.and_self, decide_eq_true (Nat.ne_of_gt hi),
      Bool.and_true]

theorem bitsOf_zero : bitsOf 0 = [] := by
  rw [bitsOf, dif_pos rfl]

theorem bitsOf_of_ne_zero {w : UInt64} (h : w ≠ 0) :
    bitsOf w = lowest w :: bitsOf (w &&& (w - 1)) := by
  rw [bitsOf, dif_neg h]

theorem mem_bitsOf_iff {w : UInt64} {i : Nat} : i ∈ bitsOf w ↔ w.toNat.testBit i = true := by
  induction w using bitsOf.induct with
  | case1 => simp [bitsOf_zero]
  | case2 w h ih =>
      rw [bitsOf_of_ne_zero h, List.mem_cons, ih, testBit_and_pred h]
      by_cases hi : i = lowest w
      · simp [hi, testBit_lowest h]
      · simp [hi]

theorem bitsOf_ascending (w : UInt64) : (bitsOf w).Pairwise (· < ·) := by
  induction w using bitsOf.induct with
  | case1 => simp [bitsOf_zero]
  | case2 w h ih =>
      rw [bitsOf_of_ne_zero h]
      refine List.pairwise_cons.2 ⟨?_, ih⟩
      intro i hi
      -- what is left is part of the word, and the lowest bit is no longer in it
      have hleft := mem_bitsOf_iff.1 hi
      rw [testBit_and_pred h, Bool.and_eq_true, decide_eq_true_iff] at hleft
      exact Nat.lt_of_le_of_ne (lowest_le hleft.1) (Ne.symm hleft.2)

theorem cpopNatRec_eq_length (x : BitVec 64) (n : Nat) :
    x.cpopNatRec n 0 = ((List.range n).filter x.getLsbD).length := by
  induction n with
  | zero => rfl
  | succ n ih =>
      rw [BitVec.cpopNatRec_succ, BitVec.cpopNatRec_add, ih, List.range_succ, List.filter_append,
        List.length_append]
      cases h : x.getLsbD n <;> simp [h]

/-- The loop takes as many turns as bits are counted. -/
theorem length_bitsOf (w : UInt64) : (bitsOf w).length = w.toBitVec.cpop.toNat := by
  have hperm : (bitsOf w).Perm ((List.range 64).filter w.toBitVec.getLsbD) := by
    apply (List.perm_ext_iff_of_nodup (bitsOf_ascending w).nodup (List.nodup_range.filter _)).2
    intro i
    rw [mem_bitsOf_iff, List.mem_filter, List.mem_range]
    exact ⟨fun h => ⟨lt_of_testBit h, h⟩, And.right⟩
  rw [hperm.length_eq, BitVec.toNat_cpop, cpopNatRec_eq_length]

/-! ## The row of words -/

theorem mem_toList_iff {s : BitSet} {v : Nat} : v ∈ s.toList ↔ s.contains v = true := by
  rw [toList, List.mem_flatMap, contains_eq, List.getD_eq_getElem?_getD]
  constructor
  · rintro ⟨⟨w, i⟩, hw, hv⟩
    obtain ⟨b, hb, rfl⟩ := List.mem_map.1 hv
    have hbit := mem_bitsOf_iff.1 hb
    have hlt := lt_of_testBit hbit
    have hword : (i * 64 + b) / 64 = i := by omega
    have hplace : (i * 64 + b) % 64 = b := by omega
    rw [hword, hplace, List.mem_zipIdx_iff_getElem?.1 hw]
    exact hbit
  · intro hv
    cases hw : s.words[v / 64]? with
    | none => simp [hw] at hv
    | some w =>
        rw [hw] at hv
        refine ⟨(w, v / 64), List.mem_zipIdx_iff_getElem?.2 hw, ?_⟩
        exact List.mem_map.2 ⟨v % 64, mem_bitsOf_iff.2 hv, by omega⟩

theorem toList_ascending (s : BitSet) : s.toList.Pairwise (· < ·) := by
  have hrow : s.words.zipIdx.Pairwise fun x y => x.2 < y.2 := by
    rw [← List.pairwise_map, List.zipIdx_map_snd]
    exact List.pairwise_lt_range'
  refine List.pairwise_flatMap.2 ⟨?_, hrow.imp ?_⟩
  · rintro ⟨w, i⟩ _
    refine List.pairwise_map.2 ((bitsOf_ascending w).imp ?_)
    intro a b hab
    omega
  · rintro ⟨w, i⟩ ⟨w', j⟩ hij v hv v' hv'
    obtain ⟨b, hb, rfl⟩ := List.mem_map.1 hv
    obtain ⟨b', _, rfl⟩ := List.mem_map.1 hv'
    have hlt := lt_of_testBit (mem_bitsOf_iff.1 hb)
    dsimp only at hij
    omega

theorem total_cpop (ws : List UInt64) (k : Nat) :
    total (ws.map fun w => w.toBitVec.cpop.toNat) =
      ((ws.zipIdx k).flatMap fun (w, i) => (bitsOf w).map fun b => i * 64 + b).length := by
  induction ws generalizing k with
  | nil => rfl
  | cons w ws ih =>
      rw [List.map_cons, total_cons, List.zipIdx_cons, List.flatMap_cons, List.length_append,
        List.length_map, length_bitsOf, ih]

/-- Counting bits counts the elements. -/
theorem size_eq_length (s : BitSet) : s.size = s.toList.length := total_cpop s.words 0

end MuxFlow.BitSet
