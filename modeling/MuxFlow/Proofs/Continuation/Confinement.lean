import Mathlib.Data.Set.Basic
import MuxFlow.Proofs.Continuation.Shape

/-!
# How far the analysis of a mux reaches

A walk from a mux ends where the rule lists no port: at an input of a recursive body, and at
another mux that it has not entered at an input. Nothing comes before such a frame on a path
(`Mux.before_eq_nil`).

The part of a graph that makes up a recursive body is `Enclosed`: data gets into it from
within or by an input of the root of the body. Walks from a mux of that part may come to the
root by one of its inputs, and then they end. They never go on to where the body is called
from, and so neither the paths nor the entries of a continuation list lie outside
(`Mux.analysis_stays_inside`).
-/

namespace MuxFlow

variable {g : Graph} {m : String} {paths : InputPaths} {x : MuxPort} {n root : Node}
  {f : Frame} {before rest : List Frame} {S : Set String}

/-- Where no edge is open a path has come to its end. -/
theorem Walk.Chain.before_eq_nil {follow : Follow} {start : Frame}
    (h : Walk.Chain g follow start (before ++ f :: rest))
    (hstop : ∀ e, ¬Walk.Open g follow f e) : before = [] := by
  rcases List.eq_nil_or_concat' before with rfl | ⟨before, f', rfl⟩
  · rfl
  · have hsteps := h.steps
    rw [List.append_assoc, List.singleton_append] at hsteps
    obtain ⟨⟨e, _, hopen⟩, _⟩ :=
      List.isChain_cons_cons.1 (hsteps.suffix (List.suffix_append before _))
    exact absurd hopen (hstop e)

/-- Nodes that data gets to from among themselves or by an input of the root of a recursive
body, the root itself left out. -/
structure Enclosed (g : Graph) (root : Node) (S : Set String) : Prop where
  mem : root ∈ g.nodes
  flag : root.recursiveRoot = true
  outside : root.id ∉ S
  enters : ∀ e ∈ g.edges, e.continuation = false → e.target ∈ S →
    e.source ∈ S ∨ e.source = root.id ∧ e.sourcePort ∈ root.inputNames

namespace Mux

theorem follow_root (hflag : n.recursiveRoot = true) {port : String}
    (hport : port ∈ n.inputNames) (m : String) : follow m n port = [] := by
  have hside : n.direction port = .input := if_pos hport
  rw [follow, if_pos hside, if_pos hflag]

theorem follow_nested (hmux : n.isMux = true) (hne : n.id ≠ m) {port : String}
    (hport : port ∉ n.inputNames) : follow m n port = [] := by
  have hside : n.direction port ≠ .input := by
    rw [Node.direction, if_neg hport]
    split <;> decide
  rw [follow, if_neg hside, if_pos ⟨hmux, hne⟩]

theorem not_open (hn : n ∈ g.nodes) (hid : n.id = f.node) (hports : follow m n f.port = [])
    (e : Edge) : ¬Walk.Open g (rule m) f e := by
  intro hopen
  obtain ⟨n', ports, hn', hports', hport⟩ := hopen.port
  obtain rfl := Except.ok.inj ((g.node_eq_ok_iff.2 ⟨hn, hid⟩).symm.trans hn')
  obtain rfl := Except.ok.inj hports'
  rw [hports] at hport
  cases hport

/-- Where the rule lists no port a path has come to its end. -/
theorem before_eq_nil (h : inputPaths g m = .ok paths)
    (hp : before ++ f :: rest ∈ paths.port x) (hn : n ∈ g.nodes) (hid : n.id = f.node)
    (hports : follow m n f.port = []) : before = [] :=
  (maximal_of_mem h hp).toChain.before_eq_nil (not_open hn hid hports)

theorem enclosed_of_mem (hS : Enclosed g root S) (h : inputPaths g m = .ok paths) (hm : m ∈ S)
    {p : Path} (hp : p ∈ paths.port x) :
    ∀ f ∈ p, f.node ∈ S ∨ f.node = root.id ∧ f.port ∈ root.inputNames := by
  apply (maximal_of_mem h hp).toChain.forall_mem
    (P := fun f => f.node ∈ S ∨ f.node = root.id ∧ f.port ∈ root.inputNames)
  · exact .inl hm
  · rintro f e (hf | ⟨hid, hport⟩) hopen
    · exact hS.enters e hopen.mem hopen.data (hopen.target ▸ hf)
    · -- at the root there is no way on
      exact absurd hopen (not_open hS.mem hid.symm (follow_root hS.flag hport m) e)

/-- The paths of a mux inside a recursive body stay inside, but for a last frame at an input
of its root, and so do the entries of its continuation list. No path gets past another mux
that it has not entered at an input. -/
theorem analysis_stays_inside (g : Graph) (m : String) (paths : InputPaths)
    (h : inputPaths g m = .ok paths) :
    (∀ root S, Enclosed g root S → m ∈ S →
      (∀ x, ∀ p ∈ paths.port x, ∀ before f rest, p = before ++ f :: rest →
        f.node ∈ S ∨ before = [] ∧ f.node = root.id ∧ f.port ∈ root.inputNames) ∧
      ∀ o mc, continuations g m o = .ok mc →
        ∀ d ∈ mc.continuations, d.node ∈ S ∨ d.node = root.id) ∧
    ∀ x, ∀ p ∈ paths.port x, ∀ before f rest, p = before ++ f :: rest →
      ∀ n ∈ g.nodes, n.id = f.node → n.isMux = true → n.id ≠ m → f.port ∉ n.inputNames →
        before = [] := by
  refine ⟨fun root S hS hm => ⟨?paths, ?entries⟩, ?nested⟩
  case paths =>
    rintro x _ hp before f rest rfl
    rcases enclosed_of_mem hS h hm hp f (by simp) with hf | ⟨hid, hport⟩
    · exact .inl hf
    · exact .inr ⟨before_eq_nil h hp hS.mem hid.symm (follow_root hS.flag hport m), hid, hport⟩
  case entries =>
    intro o mc hmc d hd
    obtain ⟨paths', h', rfl⟩ := exists_merged hmc
    obtain rfl := Except.ok.inj (h.symm.trans h')
    obtain ⟨x, _, hd⟩ := exists_of_mem_merged hd
    obtain ⟨p, hp, hnode⟩ := nodes_of_mem_found h hd
    obtain ⟨f, hf, hnode⟩ := List.mem_map.1 hnode
    rw [← hnode]
    exact (enclosed_of_mem hS h hm hp f hf).imp_right And.left
  case nested =>
    rintro x _ hp before f rest rfl n hn hid hmux hne hport
    exact before_eq_nil h hp hn hid (follow_nested hmux hne hport)

/-- A recursive body that is called from outside. Behind one operand of its mux is a wrapped
step on the result of a call, which is fed the result of that step as well; behind the other
is another mux. -/
def called : Graph where
  nodes :=
    [{ id := "a", outputs := [⟨"o", "any"⟩] }, Node.function "f" true, Node.selector "m",
      Node.selector "k", Node.call "c" ["f"],
      { id := "w", kind := .compound, inputs := [⟨"in", "any"⟩], outputs := [⟨"out", "any"⟩] },
      { id := "i", inputs := [⟨"x", "any"⟩], outputs := [⟨"o", "any"⟩] }]
  edges :=
    [Edge.wire "a" "o" "f" "n", Edge.wire "f" "n" "m" "control", Edge.wire "k" "o" "m" "input1",
      Edge.wire "w" "out" "m" "input2", Edge.wire "f" "n" "k" "input1",
      Edge.wire "f" "n" "c" "n", Edge.wire "i" "o" "c" "n", Edge.wire "c" "o" "w" "in",
      Edge.wire "w" "in" "i" "x", Edge.wire "i" "o" "w" "out", Edge.wire "m" "o" "f" "v"]
  id_ne_empty := by decide
  ids_nodup := by decide
  kind_eq_mux := by decide
  name_ne_empty := by decide
  names_nodup := by decide
  closed := by decide

/-- What makes up the body. -/
def called.inner : Set String := {id | id ∈ ["m", "k", "c", "w", "i"]}

/-- The path through the wrapped step goes over the call to the root and ends there, though
the root is fed from outside. The other path ends at the other mux, though that mux has an
operand. -/
theorem analysis_called : ∃ paths mc, inputPaths called "m" = .ok paths ∧
    continuations called "m" .default = .ok mc ∧
    Enclosed called (Node.function "f" true) called.inner ∧
    paths.input1.map Path.nodes = [["k", "m"]] ∧
    paths.input2.map Path.nodes = [["f", "c", "w", "i", "w", "m"]] ∧
    mc.continuations.map Descriptor.node = ["c", "k"] ∧
    (∀ x, ∀ p ∈ paths.port x, ∀ before f rest, p = before ++ f :: rest →
      f.node ∈ called.inner ∨ before = [] ∧ f.node = "f" ∧ f.port ∈ ["n"]) ∧
    (∀ d ∈ mc.continuations, d.node ∈ called.inner ∨ d.node = "f") ∧
    ∀ x, ∀ p ∈ paths.port x, ∀ before f rest, p = before ++ f :: rest →
      f.node = "k" → f.port = "o" → before = [] := by
  have henclosed : Enclosed called (Node.function "f" true) called.inner :=
    { mem := by decide
      flag := rfl
      outside := show "f" ∉ ["m", "k", "c", "w", "i"] by decide
      enters := show ∀ e ∈ called.edges, e.continuation = false →
        e.target ∈ ["m", "k", "c", "w", "i"] → e.source ∈ ["m", "k", "c", "w", "i"] ∨
          e.source = "f" ∧ e.sourcePort ∈ ["n"] by decide }
  obtain ⟨paths, hpaths, hfirst, hsecond⟩ : ∃ paths, inputPaths called "m" = .ok paths ∧
      paths.input1.map Path.nodes = [["k", "m"]] ∧
      paths.input2.map Path.nodes = [["f", "c", "w", "i", "w", "m"]] :=
    exists_ok_of_okAnd (by decide +kernel)
  obtain ⟨mc, hmc, hlist⟩ : ∃ mc, continuations called "m" .default = .ok mc ∧
      mc.continuations.map Descriptor.node = ["c", "k"] :=
    exists_ok_of_okAnd (by decide +kernel)
  obtain ⟨hinside, hnested⟩ := analysis_stays_inside called "m" paths hpaths
  obtain ⟨hframes, hentries⟩ := hinside _ _ henclosed
    (show "m" ∈ ["m", "k", "c", "w", "i"] by decide)
  refine ⟨paths, mc, hpaths, hmc, henclosed, hfirst, hsecond, hlist, hframes,
    hentries _ _ hmc, ?_⟩
  intro x p hp before f rest hsplit hnode hport
  exact hnested x p hp before f rest hsplit (Node.selector "k") (by decide) hnode.symm rfl
    (by decide) (hport ▸ by decide)

end Mux

end MuxFlow
