import MuxFlow.Continuation.InputPaths
import MuxFlow.Proofs.Walk.Chain

/-!
# The paths behind a mux

The paths behind the ports of a mux are maximal chains that start at the mux. So
what holds of the mux and is carried backward along the edges that carry data holds
wherever these paths go (`forall_frame`); in particular, every frame is at a node of
the graph. They are found exactly when the mux declares its three ports, and the
only fault is that of a port it does not declare.
-/

namespace MuxFlow

namespace Mux

variable {g : Graph} {m : String} {paths : InputPaths}

/-- The rule that walks from a mux follow. -/
abbrev rule (mux : String) : Follow := fun n port => .ok (follow mux n port)

theorem inputPaths_eq_ok (h : inputPaths g m = .ok paths) :
    ∃ n ∈ g.nodes, n.id = m ∧ n.isMux = true ∧
      ∀ x : MuxPort, Walk.back g m x.name (rule m) = .ok (paths.port x) := by
  obtain ⟨n, hn, h⟩ := bind_eq_ok_iff.1 h
  obtain ⟨hmem, hid⟩ := g.node_eq_ok_iff.1 hn
  split at h
  · next hmux =>
      obtain ⟨input1, h₁, h⟩ := bind_eq_ok_iff.1 h
      obtain ⟨input2, h₂, h⟩ := bind_eq_ok_iff.1 h
      obtain ⟨control, h₃, h⟩ := bind_eq_ok_iff.1 h
      obtain rfl := Except.ok.inj h
      refine ⟨n, hmem, hid, hmux, ?_⟩
      intro x
      cases x with
      | input1 => exact h₁
      | input2 => exact h₂
      | control => exact h₃
  · cases h

theorem maximal_of_mem (h : inputPaths g m = .ok paths) {x : MuxPort} {p : Path}
    (hp : p ∈ paths.port x) : Walk.Maximal g (rule m) ⟨m, x.name, none⟩ p := by
  obtain ⟨n, hn, rfl, _, hback⟩ := inputPaths_eq_ok h
  exact (Walk.mem_back_iff hn (hback x)).1 hp

/-- What holds of the mux and is carried backward along edges holds of the node of
every frame and of the node in front of it. -/
theorem forall_frame {P : String → Prop} (h : inputPaths g m = .ok paths) (hm : P m)
    (hstep : ∀ e ∈ g.edges, e.continuation = false → P e.target → P e.source)
    {x : MuxPort} {p : Path} (hp : p ∈ paths.port x) :
    ∀ f ∈ p, P f.node ∧ ∀ e, f.edge = some e → P e.target := by
  apply (maximal_of_mem h hp).toChain.forall_mem
    (P := fun f => P f.node ∧ ∀ e, f.edge = some e → P e.target)
  · exact ⟨hm, by simp⟩
  · rintro f e ⟨hf, _⟩ he
    have htarget : P e.target := he.target ▸ hf
    refine ⟨hstep e he.mem he.data htarget, ?_⟩
    intro e' he'
    obtain rfl := Option.some.inj he'
    exact htarget

theorem hasNode_of_frame (h : inputPaths g m = .ok paths) {x : MuxPort} {p : Path}
    (hp : p ∈ paths.port x) : ∀ f ∈ p, g.hasNode f.node = true := by
  obtain ⟨n, hn, rfl, _⟩ := inputPaths_eq_ok h
  intro f hf
  exact (forall_frame (P := fun id => g.hasNode id = true) h (g.hasNode_of_mem hn)
    (fun e he _ _ => (g.closed e he).1) hp f hf).1

/-- A walk from a declared port of a node comes to an end. -/
theorem exists_back {n : Node} (hn : n ∈ g.nodes) {port : String}
    (hport : n.direction port ≠ .none) :
    ∃ ps, Walk.back g n.id port (rule m) = .ok ps := by
  rw [Walk.back_eq_enumerate hn hport]
  apply Walk.exists_enumerate
  · intro n _ port
    exact ⟨_, rfl⟩
  · intro f hf
    obtain rfl := Option.some.inj hf
    exact g.hasNode_of_mem hn

theorem back_of_undeclared {n : Node} (hn : n ∈ g.nodes) {port : String}
    (hport : n.direction port = .none) :
    Walk.back g n.id port (rule m) = .error (Graph.portNotFound .walk n.id port) := by
  rw [Walk.back, g.node_eq_ok_iff.2 ⟨hn, rfl⟩, ok_bind, if_pos hport]

end Mux

/-- The ports that a mux should declare and does not, in order. -/
def Node.undeclared (n : Node) : List MuxPort :=
  MuxPort.all.filter fun x => n.direction x.name = .none

theorem Node.mem_undeclared {n : Node} {x : MuxPort} :
    x ∈ n.undeclared ↔ n.direction x.name = .none := by
  have hall : x ∈ MuxPort.all := by cases x <;> decide
  simp [undeclared, hall]

/-- The paths of a mux are refused because of the first port that it does not
declare, and for nothing else. -/
theorem Mux.inputPaths_eq_error_iff {g : Graph} {n : Node} (hn : n ∈ g.nodes)
    (hmux : n.isMux = true) {e : Fault} :
    Mux.inputPaths g n.id = .error e ↔
      (n.undeclared.map fun x => Graph.portNotFound .walk n.id x.name).head? = some e := by
  -- the walks of the three ports, one after another
  have hwalks : Mux.inputPaths g n.id = .error e ↔
      (MuxPort.all.mapM fun x => Walk.back g n.id x.name (rule n.id)) = .error e := by
    rw [inputPaths, g.node_eq_ok_iff.2 ⟨hn, rfl⟩, ok_bind, if_pos hmux]
    simp [MuxPort.all, bind_eq_error_iff, pure, Except.pure]
  have hfault : ∀ x ∈ MuxPort.all, ∀ e, Walk.back g n.id x.name (rule n.id) = .error e ↔
      (([x].filter fun x => n.direction x.name = .none).map fun x =>
        Graph.portNotFound .walk n.id x.name).head? = some e := by
    intro x _ e
    by_cases hx : n.direction x.name = .none
    · rw [back_of_undeclared hn hx]
      simp [hx]
    · obtain ⟨ps, hps⟩ := exists_back hn hx (m := n.id)
      rw [hps]
      simp [hx]
  rw [hwalks, mapM_eq_error_iff hfault, ← List.map_flatMap, ← List.filter_flatMap]
  simp [Node.undeclared]

end MuxFlow
