import MuxFlow.Proofs.Continuation.Blocks
import MuxFlow.Proofs.Continuation.Leaving

/-!
# The nearest calls on the parts of paths that matter

Of a path behind a port only a part is looked at. It begins at the outermost frame whose
node another port has on its paths as well; a path that shares nothing is looked at as a
whole (`Cut`). The starts of paths, which all share the mux, do not count.

The search for that frame goes through the paths of the other ports one by one, by the
positions of nodes in the graph, and keeps the greatest distance from the mux. It finds
where to cut (`cut_iff`), so the calls in a list of continuations are those nearest to
the mux on the cut paths, in path order, and none of them is missing
(`recursions_nearest`).
-/

namespace MuxFlow

variable {g : Graph} {m : String} {o : Options} {mc : MuxContinuations} {paths : InputPaths}
  {x : MuxPort} {p t : Path}

/-! ## Where to cut -/

/-- Another port has the node on one of its paths, other than at the start. -/
def InputPaths.Shares (paths : InputPaths) (x : MuxPort) (id : String) : Prop :=
  ∃ y, y ≠ x ∧ ∃ q ∈ paths.port y, ∃ f ∈ q, f.isStart = false ∧ f.node = id

/-- `t` is the part of `p` that begins at the outermost frame with a node that another
port shares, or all of `p` when there is none. -/
def InputPaths.Cut (paths : InputPaths) (x : MuxPort) (p t : Path) : Prop :=
  (t = p ∧ ∀ f ∈ p, f.isStart = false → ¬paths.Shares x f.node) ∨
    ∃ before f rest, p = before ++ f :: rest ∧ t = f :: rest ∧
      f.isStart = false ∧ paths.Shares x f.node ∧
      ∀ f' ∈ before, f'.isStart = false → ¬paths.Shares x f'.node

theorem InputPaths.Cut.unique {t' : Path} (h : paths.Cut x p t) (h' : paths.Cut x p t') :
    t = t' := by
  rcases h with ⟨rfl, hnone⟩ | ⟨before, f, rest, rfl, rfl, hstart, hshares, hbefore⟩
  · rcases h' with ⟨rfl, _⟩ | ⟨before, f, rest, rfl, rfl, hstart, hshares, _⟩
    · rfl
    · exact absurd hshares (hnone f (by simp) hstart)
  · rcases h' with ⟨rfl, hnone⟩ | ⟨before', f', rest', hsplit, rfl, hstart', hshares', hbefore'⟩
    · exact absurd hshares (hnone f (by simp) hstart)
    · -- neither of the two frames comes before the other
      rcases List.append_eq_append_iff.1 hsplit with ⟨as, rfl, has⟩ | ⟨as, rfl, has⟩
      · cases as with
        | nil => exact has
        | cons a as =>
            obtain ⟨rfl, _⟩ := List.cons.inj has
            exact absurd hshares (hbefore' f (by simp) hstart)
      · cases as with
        | nil => exact has.symm
        | cons a as =>
            obtain ⟨rfl, _⟩ := List.cons.inj has
            exact absurd hshares' (hbefore f' (by simp) hstart')

/-! ## How it is found -/

namespace Divergence

theorem le_latestIn_iff {s : BitSet} {n : Nat} :
    n ≤ latestIn g s p ↔ n = 0 ∨ ∃ before f rest, p = before ++ f :: rest ∧ rest ≠ [] ∧
      seen g s f.node = true ∧ n ≤ rest.length + 1 := by
  fun_induction latestIn g s p with
  | case1 => simp
  | case2 f =>
      rw [Nat.le_zero]
      apply (or_iff_left _).symm
      rintro ⟨before, f', rest, hsplit, hne, _⟩
      have hlen := congrArg List.length hsplit
      have hpos := List.length_pos_of_ne_nil hne
      simp only [List.length_append, List.length_cons, List.length_nil] at hlen
      omega
  | case3 f f' p hseen =>
      constructor
      · intro hn
        exact .inr ⟨[], f, f' :: p, rfl, by simp, hseen, hn⟩
      · rintro (rfl | ⟨before, f₁, rest, hsplit, _, _, hn⟩)
        · exact Nat.zero_le _
        · have hlen := congrArg List.length hsplit
          simp only [List.length_append, List.length_cons] at hlen
          omega
  | case4 f f' p hseen ih =>
      rw [ih]
      apply or_congr_right
      constructor
      · rintro ⟨before, f₁, rest, hsplit, h⟩
        exact ⟨f :: before, f₁, rest, by rw [hsplit]; rfl, h⟩
      · rintro ⟨before, f₁, rest, hsplit, hne, hseen₁, hn⟩
        cases before with
        | nil =>
            obtain ⟨rfl, _⟩ := List.cons.inj hsplit
            exact absurd hseen₁ hseen
        | cons b before => exact ⟨before, f₁, rest, (List.cons.inj hsplit).2, hne, hseen₁, hn⟩

theorem le_maxLatestSplit_iff {sets : List (List Path)} {n : Nat} :
    n ≤ maxLatestSplit g p sets ↔ n = 0 ∨ ∃ before f rest, p = before ++ f :: rest ∧ rest ≠ [] ∧
      (∃ q ∈ sets.flatten, seen g (nodeSet g q) f.node = true) ∧ n ≤ rest.length + 1 := by
  rw [maxLatestSplit, le_foldl_max_iff, Nat.le_zero]
  simp only [latestSplit, le_latestIn_iff]
  constructor
  · rintro (hzero | ⟨q, hq, hzero | ⟨before, f, rest, hsplit, hne, hseen, hn⟩⟩)
    · exact .inl hzero
    · exact .inl hzero
    · exact .inr ⟨before, f, rest, hsplit, hne, ⟨q, hq, hseen⟩, hn⟩
  · rintro (hzero | ⟨before, f, rest, hsplit, hne, ⟨q, hq, hseen⟩, hn⟩)
    · exact .inl hzero
    · exact .inr ⟨q, hq, .inr ⟨before, f, rest, hsplit, hne, hseen, hn⟩⟩

end Divergence

theorem MuxPort.mem_others_iff {y : MuxPort} : y ∈ x.others ↔ y ≠ x := by
  cases x <;> cases y <;> decide

theorem InputPaths.mem_flatten_others_iff {q : Path} :
    q ∈ (paths.others x).flatten ↔ ∃ y, y ≠ x ∧ q ∈ paths.port y := by
  simp only [others, List.mem_flatten, List.mem_map, ← MuxPort.mem_others_iff]
  constructor
  · rintro ⟨_, ⟨y, hy, rfl⟩, hq⟩
    exact ⟨y, hy, hq⟩
  · rintro ⟨y, hy, hq⟩
    exact ⟨_, ⟨y, hy, rfl⟩, hq⟩

namespace Mux

/-- The start of a path is its last frame and no other. -/
theorem isStart_eq_false_iff (h : inputPaths g m = .ok paths) (hp : p ∈ paths.port x)
    {before rest : List Frame} {f : Frame} (hsplit : p = before ++ f :: rest) :
    f.isStart = false ↔ rest ≠ [] := by
  rcases (hsplit ▸ (maximal_of_mem h hp).toChain).after with
    ⟨rfl, rfl⟩ | ⟨f', rest', e, rfl, rfl, _⟩
  · simp [Frame.isStart]
  · simp [Frame.isStart, Edge.frame]

theorem mem_dropLast_iff (h : inputPaths g m = .ok paths) (hp : p ∈ paths.port x) {f : Frame} :
    f ∈ p.dropLast ↔ f ∈ p ∧ f.isStart = false := by
  constructor
  · intro hf
    obtain ⟨before, rest, hsplit⟩ := List.append_of_mem hf
    have hne : p ≠ [] := by
      rintro rfl
      cases hf
    have hp' : p = before ++ f :: (rest ++ [p.getLast hne]) := by
      rw [← List.cons_append, ← List.append_assoc, ← hsplit, List.dropLast_append_getLast]
    exact ⟨(List.dropLast_sublist p).subset hf, (isStart_eq_false_iff h hp hp').2 (by simp)⟩
  · rintro ⟨hf, hstart⟩
    obtain ⟨before, rest, rfl⟩ := List.append_of_mem hf
    have hne := (isStart_eq_false_iff h hp rfl).1 hstart
    rw [List.dropLast_append_of_ne_nil (by simp), List.dropLast_cons_of_ne_nil hne]
    simp

theorem exists_seen_iff (h : inputPaths g m = .ok paths) (hp : p ∈ paths.port x) {f : Frame}
    (hf : f ∈ p) :
    (∃ q ∈ (paths.others x).flatten,
      Divergence.seen g (Divergence.nodeSet g q) f.node = true) ↔ paths.Shares x f.node := by
  simp only [Divergence.seen_nodeSet, hasNode_of_frame h hp f hf, Bool.true_and, decide_eq_true_eq,
    InputPaths.mem_flatten_others_iff, Path.nodes, List.mem_map]
  constructor
  · rintro ⟨q, ⟨y, hy, hq⟩, f', hf', hnode⟩
    obtain ⟨hmem, hstart⟩ := (mem_dropLast_iff h hq).1 hf'
    exact ⟨y, hy, q, hq, f', hmem, hstart, hnode⟩
  · rintro ⟨y, hy, q, hq, f', hmem, hstart, hnode⟩
    exact ⟨q, ⟨y, hy, hq⟩, f', (mem_dropLast_iff h hq).2 ⟨hmem, hstart⟩, hnode⟩

theorem cut_trim (h : inputPaths g m = .ok paths) (hp : p ∈ paths.port x) :
    paths.Cut x p (Divergence.trim g (paths.others x) p) := by
  have hle : ∀ n, n ≤ Divergence.maxLatestSplit g p (paths.others x) ↔
      n = 0 ∨ ∃ before f rest, p = before ++ f :: rest ∧ f.isStart = false ∧
        paths.Shares x f.node ∧ n ≤ rest.length + 1 := by
    intro n
    rw [Divergence.le_maxLatestSplit_iff]
    refine or_congr_right (exists_congr fun before => exists_congr fun f =>
      exists_congr fun rest => and_congr_right fun hsplit => ?_)
    rw [isStart_eq_false_iff h hp hsplit, exists_seen_iff h hp (by simp [hsplit])]
  rw [Divergence.trim, Path.suffix]
  rcases (hle _).1 (Nat.le_refl _) with hzero | ⟨before, f, rest, rfl, hstart, hshares, hn⟩
  · left
    rw [hzero]
    refine ⟨rfl, ?_⟩
    intro f hf hstart hshares
    obtain ⟨before, rest, hsplit⟩ := List.append_of_mem hf
    have hpos := (hle 1).2 (.inr ⟨before, f, rest, hsplit, hstart, hshares, by omega⟩)
    omega
  · right
    have hmax := Nat.le_antisymm hn
      ((hle _).2 (.inr ⟨before, f, rest, rfl, hstart, hshares, Nat.le_refl _⟩))
    refine ⟨before, f, rest, rfl, ?_, hstart, hshares, ?_⟩
    · have hdrop : (before ++ f :: rest).length - (rest.length + 1) = before.length := by simp
      rw [hmax, if_neg (by omega), Int.toNat_natCast, hdrop, List.drop_left]
    · -- a shared frame further out would have been kept
      intro f' hf' hstart' hshares'
      obtain ⟨before₁, before₂, rfl⟩ := List.append_of_mem hf'
      have hfar := (hle (before₂ ++ f :: rest).length.succ).2
        (.inr ⟨before₁, f', before₂ ++ f :: rest, by simp, hstart', hshares', Nat.le_refl _⟩)
      rw [hmax, List.length_append, List.length_cons] at hfar
      omega

/-- The parts that are looked at are the cut paths. -/
theorem cut_iff (h : inputPaths g m = .ok paths) (hp : p ∈ paths.port x) :
    paths.Cut x p t ↔ t = Divergence.trim g (paths.others x) p := by
  constructor
  · intro hcut
    exact hcut.unique (cut_trim h hp)
  · rintro rfl
    exact cut_trim h hp

theorem forall₂_cut_iff (h : inputPaths g m = .ok paths) {parts : List Path} :
    List.Forall₂ (paths.Cut x) (paths.port x) parts ↔ parts = trimmed g paths x := by
  have hmap : ∀ ps, (∀ p ∈ ps, p ∈ paths.port x) → ∀ parts,
      List.Forall₂ (paths.Cut x) ps parts ↔
        parts = ps.map (Divergence.trim g (paths.others x)) := by
    intro ps
    induction ps with
    | nil => simp
    | cons p ps ih =>
        intro hps parts
        obtain ⟨hp, hps⟩ := List.forall_mem_cons.1 hps
        simp [List.forall₂_cons_left_iff, cut_iff h hp, ih hps]
  exact hmap _ (fun _ hp => hp) parts

/-! ## The calls -/

/-- The calls that a list has behind a port are those nearest to the mux on the cut
paths, each of them once and in path order. -/
theorem recursions_nearest (h : continuations g m o = .ok mc) (hx : x ∈ o.ports) :
    ∃ paths, inputPaths g m = .ok paths ∧ (∀ p ∈ paths.port x, ∃! t, paths.Cut x p t) ∧
      ∀ parts, List.Forall₂ (paths.Cut x) (paths.port x) parts →
        mc.block Descriptor.recursion x =
          (distinct (parts.filterMap fun t => (Recursion.nearest? g t).map Frame.node)).map
            fun id => { node := id, port := x.name, type := Descriptor.recursion } := by
  obtain ⟨paths, hpaths, rfl⟩ := exists_merged h
  refine ⟨paths, hpaths, ?_, ?_⟩
  · intro p hp
    exact ⟨_, cut_trim hpaths hp, fun t ht => (cut_iff hpaths hp).1 ht⟩
  · intro parts hparts
    obtain rfl := (forall₂_cut_iff hpaths).1 hparts
    rw [block_recursion hx, found, Recursion.nearestOf, ← List.map_filterMap, distinct_map,
      List.map_map]
    rfl

/-- Behind the second operand, one call lies beyond the pair that the control port shares,
and is not looked at; the other is shared itself, and is found. -/
theorem recursions_tapped : ∃ paths mc, inputPaths Tapped.graph "m" = .ok paths ∧
    continuations Tapped.graph "m" .default = .ok mc ∧
    List.Forall₂ (paths.Cut .input2) (paths.port .input2)
      [Tapped.along .input2 [Edge.wire "pair" "o" "m" "input2"],
        Tapped.along .input2 [Edge.wire "e" "o" "pair" "right", Edge.wire "pair" "o" "m" "input2"],
        Tapped.along .input2 [Edge.wire "n" "o" "m" "input2"]] ∧
    mc.block Descriptor.recursion .input2 =
      [{ node := "e", port := "input2", type := Descriptor.recursion }] := by
  obtain ⟨paths, hpaths, htrimmed⟩ : ∃ paths, inputPaths Tapped.graph "m" = .ok paths ∧
      [Tapped.along .input2 [Edge.wire "pair" "o" "m" "input2"],
        Tapped.along .input2 [Edge.wire "e" "o" "pair" "right", Edge.wire "pair" "o" "m" "input2"],
        Tapped.along .input2 [Edge.wire "n" "o" "m" "input2"]] =
      trimmed Tapped.graph paths .input2 :=
    exists_ok_of_okAnd (by decide +kernel)
  have hmc : continuations Tapped.graph "m" .default =
      .ok (merged Tapped.graph "m" .default paths) := by
    rw [continuations_eq, hpaths]
    rfl
  have hcuts := (forall₂_cut_iff hpaths).2 htrimmed
  obtain ⟨paths', hpaths', _, hnearest⟩ := recursions_nearest hmc (x := .input2) (by decide)
  obtain rfl := Except.ok.inj (hpaths.symm.trans hpaths')
  refine ⟨paths, _, hpaths, hmc, hcuts, (hnearest _ hcuts).trans ?_⟩
  decide

end Mux

end MuxFlow
