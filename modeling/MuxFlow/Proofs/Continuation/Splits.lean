import Mathlib.Order.Bounds.Basic
import MuxFlow.Proofs.Continuation.Nearest

/-!
# Where paths part, without the set of positions

The split of a path against another is found by looking its nodes up in a set of positions.
What it means does not need the set: it is the distance from the start to the first frame,
among those before the start, whose node is in the graph and comes up on the other path
before its start (`IsSplit`). The greatest split against some paths is a maximum, so it does
not matter in which order they are gone through, and a search may leave paths out that cannot
have a split and stop as soon as there is no greater one (`hurried`).

Paths are any lists of frames here. They need not be walks, may be empty or go through a node
more than once, and may have frames at ids that are no nodes.
-/

namespace MuxFlow

/-- The greatest of some numbers is one of them, or there is none but zero. -/
theorem isGreatest_foldl_max {α : Type} (size : α → Nat) (xs : List α) :
    IsGreatest (insert 0 {n | ∃ x ∈ xs, size x = n})
      (xs.foldl (fun best x => max best (size x)) 0) := by
  constructor
  · rcases le_foldl_max_iff.1 (Nat.le_refl (xs.foldl (fun best x => max best (size x)) 0)) with
      hzero | ⟨x, hx, hle⟩
    · exact .inl (Nat.le_zero.1 hzero)
    · exact .inr ⟨x, hx, Nat.le_antisymm (le_foldl_max_iff.2 (.inr ⟨x, hx, Nat.le_refl _⟩)) hle⟩
  · rintro n (rfl | ⟨x, hx, rfl⟩)
    · exact Nat.zero_le _
    · exact le_foldl_max_iff.2 (.inr ⟨x, hx, Nat.le_refl _⟩)

namespace Divergence

variable {g : Graph} {p q : Path} {i k : Nat}

/-- Before its start, `p` is at a node of the graph that `q` goes through before its own. -/
def SharedAt (g : Graph) (p q : Path) (i : Nat) : Prop :=
  i + 1 < p.length ∧ ∃ f, p[i]? = some f ∧ g.hasNode f.node = true ∧
    ∃ j f', j + 1 < q.length ∧ q[j]? = some f' ∧ f'.node = f.node

/-- `k` is the number of frames of `p` from the first that is shared to the start; zero when
none is shared. -/
def IsSplit (g : Graph) (p q : Path) (k : Nat) : Prop :=
  (∃ i, IsLeast {i | SharedAt g p q i} i ∧ k = p.length - i) ∨
    (∀ i, ¬SharedAt g p q i) ∧ k = 0

theorem seen_iff {id : String} : seen g (nodeSet g q) id = true ↔
    g.hasNode id = true ∧ ∃ j f, j + 1 < q.length ∧ q[j]? = some f ∧ f.node = id := by
  rw [seen_nodeSet, Bool.and_eq_true, decide_eq_true_eq, Path.nodes, List.mem_map]
  apply and_congr_right
  intro _
  constructor
  · rintro ⟨f, hf, hid⟩
    obtain ⟨j, hj⟩ := List.mem_iff_getElem?.1 hf
    rw [List.getElem?_dropLast] at hj
    split at hj
    · next hlt => exact ⟨j, f, by omega, hj, hid⟩
    · cases hj
  · rintro ⟨j, f, hlt, hj, hid⟩
    refine ⟨f, List.mem_iff_getElem?.2 ⟨j, ?_⟩, hid⟩
    rw [List.getElem?_dropLast, if_pos (by omega), hj]

theorem sharedAt_iff : SharedAt g p q i ↔ ∃ before f rest, p = before ++ f :: rest ∧
    before.length = i ∧ rest ≠ [] ∧ seen g (nodeSet g q) f.node = true := by
  simp only [SharedAt, seen_iff]
  constructor
  · rintro ⟨hlt, f, hf, hshared⟩
    obtain ⟨hi, rfl⟩ := List.getElem?_eq_some_iff.1 hf
    refine ⟨p.take i, p[i], p.drop (i + 1), ?_, ?_, ?_, hshared⟩
    · rw [← List.drop_eq_getElem_cons hi, List.take_append_drop]
    · rw [List.length_take, Nat.min_eq_left (Nat.le_of_lt hi)]
    · rw [ne_eq, List.drop_eq_nil_iff]
      omega
  · rintro ⟨before, f, rest, rfl, rfl, hne, hshared⟩
    have hpos := List.length_pos_of_ne_nil hne
    refine ⟨?_, f, by simp, hshared⟩
    rw [List.length_append, List.length_cons]
    omega

/-- A split reaches as far as some shared frame is from the start. -/
theorem le_latestSplit_iff : k ≤ latestSplit g p q ↔
    k = 0 ∨ ∃ i, SharedAt g p q i ∧ k ≤ p.length - i := by
  rw [latestSplit, le_latestIn_iff]
  apply or_congr_right
  constructor
  · rintro ⟨before, f, rest, hsplit, hne, hseen, hk⟩
    have hlen := congrArg List.length hsplit
    rw [List.length_append, List.length_cons] at hlen
    exact ⟨before.length, sharedAt_iff.2 ⟨before, f, rest, hsplit, rfl, hne, hseen⟩, by omega⟩
  · rintro ⟨i, hshared, hk⟩
    obtain ⟨before, f, rest, rfl, rfl, hne, hseen⟩ := sharedAt_iff.1 hshared
    rw [List.length_append, List.length_cons] at hk
    exact ⟨before, f, rest, rfl, hne, hseen, by omega⟩

theorem isSplit_latestSplit (g : Graph) (p q : Path) : IsSplit g p q (latestSplit g p q) := by
  have hreach : ∀ i, SharedAt g p q i → p.length - i ≤ latestSplit g p q := by
    intro i hshared
    exact le_latestSplit_iff.2 (.inr ⟨i, hshared, Nat.le_refl _⟩)
  rcases le_latestSplit_iff.1 (Nat.le_refl (latestSplit g p q)) with hzero | ⟨i, hshared, hle⟩
  · refine .inr ⟨?_, hzero⟩
    intro i hshared
    have hpos := hreach i hshared
    have hlt := hshared.1
    omega
  · refine .inl ⟨i, ⟨hshared, ?_⟩, Nat.le_antisymm hle (hreach i hshared)⟩
    intro j hj
    have hfar := (hreach j hj).trans hle
    have hlt := hj.1
    omega

theorem IsSplit.unique {k' : Nat} (h : IsSplit g p q k) (h' : IsSplit g p q k') : k = k' := by
  rcases h with ⟨i, hi, rfl⟩ | ⟨hnone, rfl⟩
  · rcases h' with ⟨i', hi', rfl⟩ | ⟨hnone', _⟩
    · rw [hi.unique hi']
    · exact absurd hi.1 (hnone' i)
  · rcases h' with ⟨i', hi', _⟩ | ⟨_, rfl⟩
    · exact absurd hi'.1 (hnone i')
    · rfl

theorem IsSplit.range (h : IsSplit g p q k) : k = 0 ∨ 2 ≤ k ∧ k ≤ p.length := by
  rcases h with ⟨i, ⟨hshared, _⟩, rfl⟩ | ⟨_, hzero⟩
  · have hlt := hshared.1
    omega
  · exact .inl hzero

theorem latestSplit_le (g : Graph) (p q : Path) : latestSplit g p q ≤ p.length := by
  have hrange := (isSplit_latestSplit g p q).range
  omega

/-- A path that is no more than its start shares nothing. -/
theorem latestSplit_of_short (h : p.length < 2 ∨ q.length < 2) : latestSplit g p q = 0 := by
  apply (isSplit_latestSplit g p q).unique
  refine .inr ⟨?_, rfl⟩
  rintro i ⟨hi, f, _, _, j, f', hj, _⟩
  omega

/-! ## The search -/

/-- The greatest split found, starting with one that is known. -/
def hurry (g : Graph) (p : Path) : Nat → List Path → Nat
  | best, [] => best
  | best, q :: qs =>
    if q.length < 2 then hurry g p best qs
    else
      let better := if best < latestSplit g p q then latestSplit g p q else best
      if better = p.length then better else hurry g p better qs

/-- The greatest split of a path against any path of the given sets, as a search that does no
more than it has to. -/
def hurried (g : Graph) (p : Path) (sets : List (List Path)) : Nat :=
  if p.length < 2 then 0 else hurry g p 0 sets.flatten

theorem hurry_eq (g : Graph) (p : Path) {best : Nat} (hbest : best ≤ p.length) (qs : List Path) :
    hurry g p best qs = qs.foldl (fun best q => max best (latestSplit g p q)) best := by
  induction qs generalizing best with
  | nil => rfl
  | cons q qs ih =>
      rw [hurry, List.foldl_cons]
      split
      · next hshort => rw [latestSplit_of_short (.inr hshort), Nat.max_zero, ih hbest]
      · have hbetter : (if best < latestSplit g p q then latestSplit g p q else best) =
            max best (latestSplit g p q) := by
          split <;> omega
        have hle : max best (latestSplit g p q) ≤ p.length :=
          Nat.max_le.2 ⟨hbest, latestSplit_le g p q⟩
        simp only [hbetter]
        split
        · next hfull =>
            -- nothing that is still to come is greater
            rw [hfull]
            apply Nat.le_antisymm
            · exact le_foldl_max_iff.2 (.inl (Nat.le_refl _))
            · rcases le_foldl_max_iff.1 (Nat.le_refl
                (qs.foldl (fun best q => max best (latestSplit g p q)) p.length)) with
                h | ⟨q', _, h⟩
              · exact h
              · exact h.trans (latestSplit_le g p q')
        · exact ih hle

theorem isGreatest_maxLatestSplit (g : Graph) (p : Path) (sets : List (List Path)) :
    IsGreatest (insert 0 {k | ∃ q ∈ sets.flatten, latestSplit g p q = k})
      (maxLatestSplit g p sets) :=
  isGreatest_foldl_max (latestSplit g p) sets.flatten

theorem hurried_eq (g : Graph) (p : Path) (sets : List (List Path)) :
    hurried g p sets = maxLatestSplit g p sets := by
  rw [hurried]
  split
  · next hshort =>
      rcases (isGreatest_maxLatestSplit g p sets).1 with hzero | ⟨q, _, hq⟩
      · exact hzero.symm
      · rw [← hq, latestSplit_of_short (.inl hshort)]
  · exact hurry_eq g p (Nat.zero_le _) _

/-- The split of a path against another is where the first shared frame is, counted from the
start. The greatest split is the maximum over all paths, whichever order they are in and
however it is searched for. -/
theorem splits_are_maxima (g : Graph) (p : Path) :
    (∀ q k, latestSplit g p q = k ↔ IsSplit g p q k) ∧
    ∀ sets,
      (sets.flatten = [] ∧ maxLatestSplit g p sets = 0 ∨
        IsGreatest {k | ∃ q ∈ sets.flatten, latestSplit g p q = k} (maxLatestSplit g p sets)) ∧
      (∀ sets', (∀ q, q ∈ sets'.flatten ↔ q ∈ sets.flatten) →
        maxLatestSplit g p sets' = maxLatestSplit g p sets) ∧
      (maxLatestSplit g p sets = 0 ∨
        2 ≤ maxLatestSplit g p sets ∧ maxLatestSplit g p sets ≤ p.length) ∧
      hurried g p sets = maxLatestSplit g p sets := by
  refine ⟨?split, fun sets => ?_⟩
  case split =>
    intro q k
    constructor
    · rintro rfl
      exact isSplit_latestSplit g p q
    · exact (isSplit_latestSplit g p q).unique
  obtain ⟨hattained, hbound⟩ := isGreatest_maxLatestSplit g p sets
  refine ⟨?greatest, ?order, ?range, hurried_eq g p sets⟩
  case greatest =>
    cases hsets : sets.flatten with
    | nil => exact .inl ⟨rfl, by rw [maxLatestSplit, hsets]; rfl⟩
    | cons q qs =>
        rw [hsets] at hattained hbound
        refine .inr ⟨?_, fun k hk => hbound (.inr hk)⟩
        rcases hattained with hzero | hattained
        · -- all splits are zero, so the first one is the greatest
          have hq := hbound (.inr ⟨q, List.mem_cons_self, rfl⟩)
          exact ⟨q, List.mem_cons_self, by omega⟩
        · exact hattained
  case order =>
    intro sets' hsame
    have hgreatest := isGreatest_maxLatestSplit g p sets'
    simp only [hsame] at hgreatest
    exact hgreatest.unique ⟨hattained, hbound⟩
  case range =>
    rcases hattained with hzero | ⟨q, _, hq⟩
    · exact .inl hzero
    · exact hq ▸ (isSplit_latestSplit g p q).range

/-- So many nodes that the positions of the last three, `o`, `p` and `q`, which feed one
another, are on both sides of a word's end. -/
def row : Graph where
  nodes := (List.range 66).map fun i =>
    { id := String.singleton (Char.ofNat (48 + i))
      inputs := [⟨"in", "any"⟩]
      outputs := [⟨"out", "any"⟩] }
  edges := [Edge.wire "o" "out" "p" "in", Edge.wire "p" "out" "q" "in"]
  id_ne_empty := by decide +kernel
  ids_nodup := by decide +kernel
  kind_eq_mux := by decide +kernel
  name_ne_empty := by decide
  names_nodup := by decide
  closed := by decide +kernel

/-- A path through the given nodes. -/
def through (ids : List String) : Path := ids.map fun id => ⟨id, "", none⟩

/-- Two splits on both sides of a word's end, none at an id that is no node, and the same
maximum when the paths come in another order and one of them twice. -/
theorem splits_row :
    row.index? "o" = some 63 ∧ row.index? "p" = some 64 ∧ row.index? "none" = none ∧
    IsSplit row (through ["none", "p", "o", "p", "0"]) (through ["none", "o", "0"]) 3 ∧
    IsSplit row (through ["none", "p", "o", "p", "0"]) (through ["q", "p", "0"]) 4 ∧
    IsSplit row (through ["none", "p", "o", "p", "0"]) (through ["q", "o"]) 0 ∧
    maxLatestSplit row (through ["none", "p", "o", "p", "0"])
      [[through ["none", "o", "0"], []], [through ["q", "p", "0"]]] = 4 ∧
    maxLatestSplit row (through ["none", "p", "o", "p", "0"])
      [[through ["q", "p", "0"]], [], [[], through ["none", "o", "0"], []]] = 4 := by
  obtain ⟨hsplit, hmax⟩ := splits_are_maxima row (through ["none", "p", "o", "p", "0"])
  have hfour : maxLatestSplit row (through ["none", "p", "o", "p", "0"])
      [[through ["none", "o", "0"], []], [through ["q", "p", "0"]]] = 4 := by decide +kernel
  refine ⟨by decide +kernel, by decide +kernel, by decide +kernel,
    (hsplit _ _).1 (by decide +kernel), (hsplit _ _).1 (by decide +kernel),
    (hsplit _ _).1 (by decide +kernel), hfour, ?_⟩
  rw [(hmax _).2.1 _ ?_, hfour]
  intro q
  simp only [List.flatten_cons, List.flatten_nil, List.mem_append, List.mem_cons]
  tauto

end Divergence

end MuxFlow
