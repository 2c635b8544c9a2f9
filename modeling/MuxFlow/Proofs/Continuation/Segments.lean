import MuxFlow.Proofs.Annotate.Stages
import MuxFlow.Proofs.Continuation.Findings
import MuxFlow.Proofs.Continuation.Leaving

/-!
# Two searches for a call

The way from a mux to a recursive call is looked for twice. One search asks the graph
which nodes are calls, on one path, and begins with the mux itself
(`Recursion.firstOnPath`). The other knows only the nodes at which the first search
ended on some path behind the same port, and leaves the mux out (`segment?`).

What the second search does not know makes no difference: a call that it misses lies
behind one that it meets, since the nearest call of the path is known to it. Leaving the
mux out makes no difference either, unless the mux is a call. So the searches stop at the
same frame of every path (`Recursion.searches_agree`), however often the path comes by
calls or by the mux.
-/

namespace MuxFlow

namespace Recursion

open Branching (segment?)

variable {g : Graph} {m : String} {ps : List Path} {p : Path} {f : Frame}

/-- The nearest call cuts the path in two; on the side of the start there is none. -/
theorem nearest?_eq_some_iff :
    nearest? g p = some f ↔ ∃ farther nearer, p = farther ++ f :: nearer ∧
      f.node ∈ g.calls ∧ ∀ h ∈ nearer, h.node ∉ g.calls := by
  rw [nearest?, Path.outward, List.find?_eq_some_iff_append, decide_eq_true_iff]
  constructor
  · rintro ⟨hcall, front, rest, hsplit, hfront⟩
    refine ⟨rest.reverse, front.reverse, ?_, hcall, ?_⟩
    · rw [← List.reverse_inj, hsplit]
      simp
    · simpa using hfront
  · rintro ⟨farther, nearer, rfl, hcall, hnearer⟩
    exact ⟨hcall, nearer.reverse, farther.reverse, by simp, by simpa using hnearer⟩

theorem nearest?_eq_none_iff : nearest? g p = none ↔ ∀ h ∈ p, h.node ∉ g.calls := by
  simp [nearest?, Path.outward]

/-- Known nodes are calls. -/
theorem mem_calls_of_mem_nearestOf {id : String} (h : id ∈ (nearestOf g ps).map Frame.node) :
    id ∈ g.calls := by
  obtain ⟨p, -, f, hf, rfl⟩ := mem_nodes_nearestOf_iff.1 h
  obtain ⟨-, -, -, hcall, -⟩ := nearest?_eq_some_iff.1 hf
  exact hcall

/-- Where the nearest call is known, the way to it is the same for both searches. -/
theorem segment?_of_split {known : List String} {farther nearer : List Frame}
    (hknown : ∀ id ∈ known, id ∈ g.calls) (hf : f.node ∈ known)
    (hstart : ∀ s, (farther ++ f :: nearer).getLast? = some s → s.node ∉ g.calls)
    (hnearer : ∀ h ∈ nearer, h.node ∉ g.calls) :
    segment? known (farther ++ f :: nearer) = some nearer.reverse := by
  apply Branching.segment?_eq_some_iff.2
  induction nearer using List.reverseRecOn with
  | nil => exact absurd (hknown _ hf) (hstart f (by simp))
  | append_singleton nearer s _ =>
      refine ⟨s, nearer.reverse, f, farther.reverse, by simp, by simp [Path.outward], hf, ?_⟩
      intro h hh hmem
      exact hnearer h (List.mem_append_left _ (List.mem_reverse.1 hh)) (hknown _ hmem)

theorem segment?_of_nearest?_eq_none {known : List String}
    (hknown : ∀ id ∈ known, id ∈ g.calls) (h : nearest? g p = none) : segment? known p = none := by
  apply Branching.segment?_eq_none_iff.2
  intro f hf hmem
  have hp : f ∈ p := List.mem_reverse.1 (List.mem_of_mem_tail hf)
  exact nearest?_eq_none_iff.1 h f hp (hknown _ hmem)

/-- On paths from a mux that is no call, the search among the nodes that were found on all
of them succeeds where the search for calls does, and gives the frames between the mux and
the call. -/
theorem searches_agree (hm : ∀ n ∈ g.nodes, n.id = m → n.recursive = false)
    (hstart : ∀ p ∈ ps, ∀ s, p.start? = some s → s.node = m)
    (hnodes : ∀ p ∈ ps, ∀ f ∈ p, g.hasNode f.node = true) :
    ∃ found, firstOnPaths g m ps = .ok found ∧
      ∀ p ∈ ps, ∃ call, firstOnPath g m p = .ok call ∧
        (segment? (found.map Frame.node) p).isSome = call.isSome ∧
        ∀ f, call = some f → ∃ farther nearer, p = farther ++ f :: nearer ∧
          segment? (found.map Frame.node) p = some nearer.reverse ∧
          ∀ h ∈ nearer, ∀ n ∈ g.nodes, n.id = h.node → n.recursive = false := by
  refine ⟨nearestOf g ps, firstOnPaths_eq hstart hnodes, ?_⟩
  intro p hp
  have hknown : ∀ id ∈ (nearestOf g ps).map Frame.node, id ∈ g.calls :=
    fun id => mem_calls_of_mem_nearestOf
  refine ⟨nearest? g p, firstOnPath_eq (hstart p hp) (hnodes p hp), ?_⟩
  cases hcall : nearest? g p with
  | none =>
      rw [segment?_of_nearest?_eq_none hknown hcall]
      exact ⟨rfl, fun f hf => nomatch hf⟩
  | some f =>
      obtain ⟨farther, nearer, rfl, hfcall, hnearer⟩ := nearest?_eq_some_iff.1 hcall
      have hmcall : ∀ s, (farther ++ f :: nearer).getLast? = some s → s.node ∉ g.calls := by
        intro s hs
        rw [hstart _ hp s hs]
        exact g.not_mem_calls_iff.2 hm
      have hway := segment?_of_split hknown (mem_nodes_nearestOf_iff.2 ⟨_, hp, f, hcall, rfl⟩)
        hmcall hnearer
      rw [hway]
      refine ⟨rfl, ?_⟩
      intro f' hf'
      obtain rfl := Option.some.inj hf'
      exact ⟨farther, nearer, rfl, rfl, fun h hh => g.not_mem_calls_iff.1 (hnearer h hh)⟩

/-- A mux that feeds itself, with one call behind another. -/
def shuttle : Graph where
  nodes :=
    [Node.selector "m", Node.call "c" [], Node.call "d" [],
      { id := "a", inputs := [⟨"n", "any"⟩], outputs := [⟨"o", "any"⟩] }]
  edges :=
    [Edge.wire "d" "o" "m" "input1", Edge.wire "d" "o" "c" "n", Edge.wire "c" "o" "m" "input1",
      Edge.wire "m" "o" "a" "n", Edge.wire "a" "o" "m" "input1"]
  id_ne_empty := by decide
  ids_nodup := by decide
  kind_eq_mux := by decide
  name_ne_empty := by decide
  names_nodup := by decide
  closed := by decide

/-- A path that ends at a call, one that comes by the mux again and then by both calls, and
one without calls. -/
def shuttlePaths : List Path :=
  [[(Edge.wire "d" "o" "m" "input1").frame, ⟨"m", "input1", none⟩],
    [(Edge.wire "d" "o" "c" "n").frame, (Edge.wire "c" "o" "m" "input1").frame,
      (Edge.wire "m" "o" "a" "n").frame, (Edge.wire "a" "o" "m" "input1").frame,
      ⟨"m", "input1", none⟩],
    [(Edge.wire "a" "o" "m" "input1").frame, ⟨"m", "input1", none⟩]]

theorem searches_shuttle : ∃ found, firstOnPaths shuttle "m" shuttlePaths = .ok found ∧
    (∀ p ∈ shuttlePaths, ∃ call, firstOnPath shuttle "m" p = .ok call ∧
      (segment? (found.map Frame.node) p).isSome = call.isSome) ∧
    found.map Frame.node = ["d", "c"] ∧
    shuttlePaths.map (fun p => (segment? (found.map Frame.node) p).map Path.nodes) =
      [some ["m"], some ["m", "a", "m"], none] := by
  obtain ⟨found, hfound, hall⟩ :=
    @searches_agree shuttle "m" shuttlePaths (by decide) (by decide) (by decide)
  obtain ⟨found', hfound', hids⟩ : ∃ found, firstOnPaths shuttle "m" shuttlePaths = .ok found ∧
      found.map Frame.node = ["d", "c"] := exists_ok_of_okAnd (by decide +kernel)
  obtain rfl := Except.ok.inj (hfound.symm.trans hfound')
  refine ⟨found, hfound, ?_, hids, ?_⟩
  · intro p hp
    obtain ⟨call, hcall, hagree, -⟩ := hall p hp
    exact ⟨call, hcall, hagree⟩
  · rw [hids]
    decide +kernel

end Recursion

end MuxFlow
