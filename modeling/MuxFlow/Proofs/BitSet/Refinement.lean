import Mathlib.Data.Finset.Card
import MuxFlow.Proofs.BitSet.Listing

/-!
# Rows of words as finite sets

A row of words stands for the finite set of its elements. Every operation is one on finite
sets: an empty row has no elements, a call that adds or removes a number inserts or erases it
(`Call.perform?_of_fits`), and what a row answers is what the set answers
(`answersAs_elements`). So after any run of calls a row answers as the finite set does that
the same calls have made of the empty set (`session_refines`).

What a finite set has and a row has not is an end: a row has at most `mostWords` words. A
row for greater numbers is not made, and a greater number is not added.
-/

namespace MuxFlow.BitSet

variable {s : BitSet} {v : Nat}

/-! ## The set that a row stands for -/

/-- The elements of a row. -/
def elements (s : BitSet) : Finset Nat := s.toList.toFinset

@[simp] theorem mem_elements : v ∈ s.elements ↔ s.contains v = true := by
  rw [elements, List.mem_toFinset, mem_toList_iff]

@[simp] theorem elements_blank (n : Nat) : (blank n).elements = ∅ := by
  ext v
  simp

@[simp] theorem elements_grow (s : BitSet) (n : Nat) : (s.grow n).elements = s.elements := by
  ext v
  simp

@[simp] theorem elements_insert (s : BitSet) (v : Nat) :
    (s.insert v).elements = Insert.insert v s.elements := by
  ext w
  simp [contains_insert]

@[simp] theorem elements_erase (s : BitSet) (v : Nat) :
    (s.erase v).elements = s.elements.erase v := by
  ext w
  simp [contains_erase]

/-- A row answers as a finite set does. -/
structure AnswersAs (s : BitSet) (A : Finset Nat) : Prop where
  /-- No negative number is there. -/
  has_iff : ∀ v : Int, s.has v = true ↔ ∃ n ∈ A, (n : Int) = v
  size_eq : s.size = A.card
  ascending : s.toList.Pairwise (· < ·)
  listed : ∀ v, v ∈ s.toList ↔ v ∈ A

theorem has_iff (v : Int) : s.has v = true ↔ ∃ n ∈ s.elements, (n : Int) = v := by
  rw [has, Bool.and_eq_true, decide_eq_true_iff]
  constructor
  · rintro ⟨hv, hmem⟩
    exact ⟨v.toNat, mem_elements.2 hmem, Int.toNat_of_nonneg hv⟩
  · rintro ⟨n, hn, rfl⟩
    exact ⟨Int.natCast_nonneg n, mem_elements.1 hn⟩

theorem answersAs_elements (s : BitSet) : s.AnswersAs s.elements where
  has_iff := has_iff
  size_eq := by
    rw [size_eq_length, elements, List.toFinset_card_of_nodup s.toList_ascending.nodup]
  ascending := s.toList_ascending
  listed v := List.mem_toFinset.symm

/-! ## One call -/

/-- A call with a number that is not negative. -/
inductive Call where
  | add (v : Nat)
  | remove (v : Nat)
  deriving DecidableEq, Repr

namespace Call

/-- There can be a row with the word of the number, if it is to be added. -/
def Fits : Call → Prop
  | .add v => v / 64 < mostWords
  | .remove _ => True

instance : DecidablePred Fits
  | .add v => inferInstanceAs (Decidable (v / 64 < mostWords))
  | .remove _ => inferInstanceAs (Decidable True)

/-- What a call makes of a row, with its answer; nothing if it is refused. -/
def perform? (s : BitSet) : Call → Option (BitSet × Option Bool)
  | .add v =>
    match s.add v with
    | (t, some absent) => some (t, some absent)
    | (_, none) => none
  | .remove v => (s.remove? v).map fun t => (t, none)

/-- What a call makes of a finite set. -/
def onFinset (A : Finset Nat) : Call → Finset Nat
  | .add v => Insert.insert v A
  | .remove v => A.erase v

/-- Whether an added number is new to a finite set. A call that removes one answers
nothing. -/
def answer (A : Finset Nat) : Call → Option Bool
  | .add v => some (v ∉ A)
  | .remove _ => none

/-- The number of words after a call. -/
def stretch (n : Nat) : Call → Nat
  | .add v => max n (v / 64 + 1)
  | .remove _ => n

end Call

/-- A number is added with its word. -/
theorem exists_add (s : BitSet) (h : v / 64 < mostWords) :
    ∃ t, s.add v = (t, some (decide (v ∉ s.elements))) ∧
      t.elements = Insert.insert v s.elements ∧
      t.words.length = max s.words.length (v / 64 + 1) := by
  have hroom : ¬(mostWords : Int) ≤ (v : Int).tdiv 64 := fun hle =>
    Nat.not_le_of_lt h (Int.ofNat_le.1 hle)
  have hwords : ((v : Int).tdiv 64 + 1).toNat = v / 64 + 1 := rfl
  have hsign : ¬(v : Int) < 0 := Int.not_lt.2 (Int.natCast_nonneg v)
  unfold add
  simp only [if_neg hroom, hwords, if_neg hsign, Int.toNat_natCast, contains_grow]
  -- the row is stretched in both cases, though only a new number can need it
  by_cases hv : v ∈ s.elements
  · refine ⟨s.grow (v / 64 + 1), ?_, ?_, length_grow s _⟩
    · rw [if_pos (mem_elements.1 hv), decide_eq_false (not_not_intro hv)]
    · rw [elements_grow, Finset.insert_eq_self.2 hv]
  · refine ⟨(s.grow (v / 64 + 1)).insert v, ?_, ?_, ?_⟩
    · rw [if_neg fun hc => hv (mem_elements.2 hc), decide_eq_true hv]
    · rw [elements_insert, elements_grow]
    · rw [length_insert, length_grow, Nat.max_assoc, Nat.max_self]

theorem add_of_le (s : BitSet) (h : mostWords ≤ v / 64) : s.add v = (s, none) := by
  have hfull : (mostWords : Int) ≤ (v : Int).tdiv 64 := Int.ofNat_le.2 h
  unfold add
  rw [if_pos hfull]

theorem remove?_natCast (s : BitSet) (v : Nat) : s.remove? v = some (s.erase v) := by
  rw [remove?, if_pos (Int.natCast_nonneg v), Int.toNat_natCast]

/-- A call does to the elements what it does to a finite set. -/
theorem Call.perform?_of_fits (s : BitSet) {c : Call} (h : c.Fits) :
    ∃ t, c.perform? s = some (t, c.answer s.elements) ∧ t.elements = c.onFinset s.elements ∧
      t.words.length = c.stretch s.words.length := by
  cases c with
  | add v =>
      obtain ⟨t, ht, helements, hlength⟩ := s.exists_add h
      exact ⟨t, by rw [perform?, ht, answer], helements, hlength⟩
  | remove v =>
      refine ⟨s.erase v, ?_, elements_erase s v, ?_⟩
      · rw [perform?, remove?_natCast]
        rfl
      · rw [erase, List.length_modify, stretch]

theorem Call.perform?_of_not_fits (s : BitSet) {c : Call} (h : ¬c.Fits) : c.perform? s = none := by
  cases c with
  | add v => rw [perform?, s.add_of_le (Nat.le_of_not_lt h)]
  | remove v => exact absurd trivial h

/-! ## Runs of calls -/

/-- Calls one after another, with their answers; a call that is refused ends the run. -/
def run? (s : BitSet) : List Call → Option (BitSet × List (Option Bool))
  | [] => some (s, [])
  | c :: calls =>
    match c.perform? s with
    | some (t, answer) => (run? t calls).map fun (u, answers) => (u, answer :: answers)
    | none => none

/-- Calls on a new row for numbers up to `top`. -/
def session? (top : Int) (calls : List Call) : Option (BitSet × List (Option Bool)) := do
  let s ← sized? top
  s.run? calls

namespace Call

/-- What calls make of a finite set. -/
def after (A : Finset Nat) (calls : List Call) : Finset Nat := calls.foldl onFinset A

/-- What calls answer that start with a finite set. -/
def answers (A : Finset Nat) : List Call → List (Option Bool)
  | [] => []
  | c :: calls => c.answer A :: answers (c.onFinset A) calls

end Call

theorem run?_of_fits (s : BitSet) {calls : List Call} (h : ∀ c ∈ calls, c.Fits) :
    ∃ t, s.run? calls = some (t, Call.answers s.elements calls) ∧
      t.elements = Call.after s.elements calls ∧
      t.words.length = calls.foldl Call.stretch s.words.length := by
  induction calls generalizing s with
  | nil => exact ⟨s, rfl, rfl, rfl⟩
  | cons c calls ih =>
      obtain ⟨hc, hcalls⟩ := List.forall_mem_cons.1 h
      -- the calls that remain start where both the row and the set have come to
      obtain ⟨t, ht, helements, hlength⟩ := Call.perform?_of_fits s hc
      obtain ⟨u, hu, hu_elements, hu_length⟩ := ih t hcalls
      refine ⟨u, ?_, ?_, ?_⟩
      · rw [helements] at hu
        simp only [run?, ht, hu, Option.map_some, Call.answers]
      · rw [hu_elements, helements]
        rfl
      · rw [hu_length, hlength]
        rfl

theorem run?_of_not_fits (s : BitSet) {calls : List Call} (h : ¬∀ c ∈ calls, c.Fits) :
    s.run? calls = none := by
  induction calls generalizing s with
  | nil => simp at h
  | cons c calls ih =>
      rw [List.forall_mem_cons, not_and] at h
      by_cases hc : c.Fits
      · obtain ⟨t, ht, _⟩ := Call.perform?_of_fits s hc
        simp only [run?, ht, ih t (h hc), Option.map_none]
      · rw [run?, Call.perform?_of_not_fits s hc]

theorem sized?_natCast {top : Nat} (h : top + 64 < 2 ^ 63) :
    sized? top = if top / 64 < mostWords then some (blank (top / 64 + 1)) else none := by
  have hbmod : ((top : Int) + 64).bmod 0x10000000000000000 = (top + 64 : Nat) := by
    apply Int.bmod_eq_of_le_mul_two <;> omega
  have hwords : (((top : Int) + 64).bmod 0x10000000000000000).tdiv 64 = (top / 64 + 1 : Nat) := by
    rw [hbmod, ← Nat.add_div_right top (by decide)]
    rfl
  unfold sized?
  simp only [hwords, Int.toNat_natCast, Bool.or_eq_true, decide_eq_true_iff]
  split
  · next hbad => rw [if_neg (by omega)]
  · next hok => rw [if_pos (by omega)]

theorem le_foldl_stretch (calls : List Call) (n : Nat) : n ≤ calls.foldl Call.stretch n := by
  induction calls generalizing n with
  | nil => exact Nat.le_refl n
  | cons c calls ih =>
      have hstep : n ≤ c.stretch n := by
        cases c with
        | add v => exact Nat.le_max_left _ _
        | remove v => exact Nat.le_refl n
      exact hstep.trans (ih _)

/-- How a row that stands for a finite set reaches as far as it has to. -/
structure Stretches (s : BitSet) (A : Finset Nat) : Prop where
  /-- A number is added with its word, and the others are there as before. -/
  add : ∀ v, v / 64 < mostWords → ∃ t, s.add v = (t, some (decide (v ∉ A))) ∧
    t.words.length = max s.words.length (v / 64 + 1) ∧ ∀ u : Int, u ≠ v → t.has u = s.has u
  /-- A number whose word no row can have is refused, and nothing changes. -/
  refuse : ∀ v : Nat, mostWords ≤ v / 64 → s.add v = (s, none)
  /-- Removing a number whose word is not there changes nothing. -/
  remove : ∀ v : Nat, s.words.length ≤ v / 64 → s.remove? v = some s

theorem stretches_elements (s : BitSet) : s.Stretches s.elements where
  add v hv := by
    obtain ⟨t, ht, helements, hlength⟩ := s.exists_add hv
    refine ⟨t, ht, hlength, ?_⟩
    intro u hu
    rw [Bool.eq_iff_iff, has_iff, has_iff, helements]
    constructor
    · rintro ⟨n, hn, rfl⟩
      have hne : n ≠ v := fun h => hu (congrArg _ h)
      exact ⟨n, Finset.mem_of_mem_insert_of_ne hn hne, rfl⟩
    · rintro ⟨n, hn, rfl⟩
      exact ⟨n, Finset.mem_insert_of_mem hn, rfl⟩
  refuse v hv := s.add_of_le hv
  remove v hv := by
    rw [remove?_natCast, erase_eq_self hv]

/-- A row for numbers up to `top` answers, after any calls, as the finite set that the calls
make of the empty set, and each call answers as it does there. The row is as long as the
greatest word asks for, and long enough for `top` from the start. All this unless a word is
asked for that no row can have: then the row is not made or the call is refused. -/
theorem session_refines (top : Nat) (htop : top + 64 < 2 ^ 63) (calls : List Call) :
    (top / 64 < mostWords → (∀ c ∈ calls, c.Fits) →
      ∃ s, session? top calls = some (s, Call.answers ∅ calls) ∧
        s.AnswersAs (Call.after ∅ calls) ∧ s.Stretches (Call.after ∅ calls) ∧
        s.words.length = calls.foldl Call.stretch (top / 64 + 1) ∧
        ∀ v ≤ top, v / 64 < s.words.length) ∧
    (¬(top / 64 < mostWords ∧ ∀ c ∈ calls, c.Fits) → session? top calls = none) := by
  rw [session?, sized?_natCast htop]
  constructor
  · intro hroom hfits
    obtain ⟨s, hs, helements, hlength⟩ := run?_of_fits (blank (top / 64 + 1)) hfits
    rw [elements_blank] at hs helements
    have hwords : s.words.length = calls.foldl Call.stretch (top / 64 + 1) := by
      rw [hlength, blank, List.length_replicate]
    refine ⟨s, ?_, helements ▸ s.answersAs_elements, helements ▸ s.stretches_elements,
      hwords, ?_⟩
    · rw [if_pos hroom]
      exact hs
    · intro v hv
      have hle := le_foldl_stretch calls (top / 64 + 1)
      omega
  · intro hnot
    split
    · next hroom => exact run?_of_not_fits _ fun hfits => hnot ⟨hroom, hfits⟩
    · rfl

/-- Calls on both sides of the ends of words. -/
def edges : List Call :=
  [.add 63, .add 64, .add 63, .remove 64, .remove 1000, .add 200, .add 0]

theorem session_edges :
    63 + 64 < 2 ^ 63 ∧ 63 / 64 < mostWords ∧ (∀ c ∈ edges, c.Fits) ∧
    ∃ s, session? 63 edges =
        some (s, [some true, some true, some false, none, none, some true, some true]) ∧
      s.AnswersAs {0, 63, 200} ∧ s.Stretches {0, 63, 200} ∧ s.words.length = 4 := by
  obtain ⟨s, hs, hanswers, hstretches, hwords, _⟩ :=
    (session_refines 63 (by decide) edges).1 (by decide) (by decide)
  have hafter : Call.after ∅ edges = {0, 63, 200} := by decide
  rw [hafter] at hanswers hstretches
  exact ⟨by decide, by decide, by decide, s, hs, hanswers, hstretches, hwords⟩

/-- A row is not made, and a number is not added, for words that no row can have. -/
theorem session_beyond :
    (2 ^ 62 + 64 < 2 ^ 63 ∧ sized? (2 ^ 62 : Nat) = none) ∧
    (sized? 0 = some (blank 1) ∧ (blank 1).add (2 ^ 60 : Nat) = (blank 1, none)) := by
  decide

end MuxFlow.BitSet
