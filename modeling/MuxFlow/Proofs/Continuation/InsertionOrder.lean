import Mathlib.Data.List.Perm.Basic
import MuxFlow.Proofs.Continuation.Blocks

/-!
# The order of insertion

Two graphs may have the same nodes and the same edges and differ in the order in which
these were inserted (`Graph.SameParts`). A walk tries edges in that order, so it finds
paths in another order; but it finds the same ones, and each as often
(`SameParts.enumerate`). How far the outermost shared node is from the mux is a maximum
over paths, and the nearest call on a path is a matter of that path alone. So the cuts are
the same, and so are the calls in a continuation list (`SameParts.cuts_and_calls`), though
they may come in another order.
-/

namespace MuxFlow

variable {g g' : Graph} {paths paths' : InputPaths} {x : MuxPort} {p : Path}

/-- The same nodes and the same edges, in whatever order. -/
structure Graph.SameParts (g g' : Graph) : Prop where
  nodes : g.nodes.Perm g'.nodes
  edges : g.edges.Perm g'.edges

/-- The same paths behind every port, in whatever order, and cut at the same frames. -/
structure InputPaths.SameCuts (g g' : Graph) (paths paths' : InputPaths) : Prop where
  perm : ∀ x, (paths.port x).Perm (paths'.port x)
  trim : ∀ x, ∀ p ∈ paths.port x,
    Divergence.trim g (paths.others x) p = Divergence.trim g' (paths'.others x) p

/-- The same calls, in whatever order. -/
def MuxContinuations.SameCalls (mc mc' : MuxContinuations) : Prop :=
  ∀ d, d.type = Descriptor.recursion → (d ∈ mc.continuations ↔ d ∈ mc'.continuations)

/-- A cut depends on which paths there are to share with. -/
theorem Divergence.trim_perm {sets sets' : List (List Path)}
    (h : sets.flatten.Perm sets'.flatten) : trim g sets p = trim g sets' p := by
  have hmax : maxLatestSplit g p sets = maxLatestSplit g p sets' := by
    apply h.foldl_eq'
    intro q _ q' _ best
    rw [Nat.max_assoc, Nat.max_comm (latestSplit g p q), Nat.max_assoc]
  rw [trim, trim, hmax]

namespace Graph.SameParts

theorem node (h : g.SameParts g') (id : String) : g.node id = g'.node id := by
  have hnode? : g.node? id = g'.node? id := by
    apply Option.ext
    intro n
    rw [node?_eq_some_iff, node?_eq_some_iff, h.nodes.mem_iff]
  rw [Graph.node, Graph.node, hnode?]

theorem hasNode (h : g.SameParts g') (id : String) : g.hasNode id = g'.hasNode id :=
  h.nodes.any_eq

theorem nearest? (h : g.SameParts g') (p : Path) :
    Recursion.nearest? g p = Recursion.nearest? g' p := by
  have hcalls : ∀ id, id ∈ g.calls ↔ id ∈ g'.calls := by
    intro id
    exact ((h.nodes.filter Node.recursive).map Node.id).mem_iff
  simp only [Recursion.nearest?, hcalls]

/-! ## Walks -/

theorem nextFrames (h : g.SameParts g') (p : Path) (node : String) (ports : List String) :
    (Walk.nextFrames g p node ports).Perm (Walk.nextFrames g' p node ports) := by
  have harrivals : (Walk.arrivals g node ports).Perm (Walk.arrivals g' node ports) := by
    apply List.Perm.flatMap_left
    intro port _
    exact (h.edges.filter _).filter _
  exact (harrivals.map _).filter _

theorem extensions (h : g.SameParts g') {follow : Follow} {qs : List Path}
    (hqs : Walk.extensions g follow p = .ok qs) :
    ∃ qs', Walk.extensions g' follow p = .ok qs' ∧ qs.Perm qs' := by
  cases p with
  | nil =>
      obtain rfl := Except.ok.inj hqs
      exact ⟨[], rfl, .refl _⟩
  | cons f p =>
      obtain ⟨n, hn, hqs⟩ := bind_eq_ok_iff.1 hqs
      obtain ⟨ports, hports, hqs⟩ := bind_eq_ok_iff.1 hqs
      obtain rfl := Except.ok.inj hqs
      refine ⟨_, ?_, (h.nextFrames (f :: p) f.node ports).map _⟩
      rw [Walk.extensions, ← h.node, hn, ok_bind, hports, ok_bind]

/-- The recursion finds the same paths, each as often. -/
theorem enumerate (h : g.SameParts g') {follow : Follow} {ps : List Path}
    (hps : Walk.enumerate g follow p = .ok ps) :
    ∃ ps', Walk.enumerate g' follow p = .ok ps' ∧ ps.Perm ps' := by
  induction p using Walk.enumerate.induct g follow generalizing ps with
  | case1 p e hext =>
      rw [Walk.enumerate_of_error hext] at hps
      cases hps
  | case2 p hext =>
      rw [Walk.enumerate_of_nil hext] at hps
      obtain rfl := Except.ok.inj hps
      obtain ⟨qs, hext', hperm⟩ := h.extensions hext
      obtain rfl := hperm.nil_eq
      exact ⟨[p], Walk.enumerate_of_nil hext', .refl _⟩
  | case3 p r rs hext ih =>
      rw [Walk.enumerate_of_cons hext] at hps
      obtain ⟨found, hfound, hps⟩ := bind_eq_ok_iff.1 hps
      obtain rfl := Except.ok.inj hps
      -- what comes of each extension, first in the order of one graph and then of the other
      obtain ⟨found', hfound', hsame⟩ :=
        exists_forall₂ (mapM_eq_ok_iff.1 hfound) fun q hq _ => ih q hq
      obtain ⟨qs, hext', hperm⟩ := h.extensions hext
      obtain ⟨found'', hfound'', hperm'⟩ := List.perm_comp_forall₂ hperm.symm hfound'
      refine ⟨found''.flatten, ?_, (List.Perm.flatten_congr hsame).trans hperm'.symm.flatten⟩
      cases qs with
      | nil => cases hperm.symm.nil_eq
      | cons q qs => rw [Walk.enumerate_of_cons hext', mapM_eq_ok_iff.2 hfound'', ok_bind]

theorem back (h : g.SameParts g') {n : Node} (hn : n ∈ g.nodes) (m port : String) :
    EndAlike List.Perm (Walk.back g n.id port (Mux.rule m))
      (Walk.back g' n.id port (Mux.rule m)) := by
  have hn' := h.nodes.mem_iff.1 hn
  by_cases hport : n.direction port = .none
  · rw [Mux.back_of_undeclared hn hport, Mux.back_of_undeclared hn' hport]
    exact .error _
  · obtain ⟨ps, hps⟩ := Mux.exists_back hn hport (m := m)
    rw [hps]
    rw [Walk.back_eq_enumerate hn hport] at hps
    obtain ⟨ps', hps', hperm⟩ := h.enumerate hps
    rw [Walk.back_eq_enumerate hn' hport, hps']
    exact .ok hperm

/-! ## The analysis of a mux -/

theorem trim (h : g.SameParts g') (hperm : ∀ y, (paths.port y).Perm (paths'.port y))
    (x : MuxPort) (p : Path) :
    Divergence.trim g (paths.others x) p = Divergence.trim g' (paths'.others x) p := by
  have hothers : (paths.others x).flatten.Perm (paths'.others x).flatten :=
    List.Perm.flatMap_left x.others fun y _ => hperm y
  rw [Divergence.trim_perm hothers, Divergence.trim_congr _ fun f _ => h.hasNode f.node]

theorem inputPaths (h : g.SameParts g') (m : String) :
    EndAlike (InputPaths.SameCuts g g') (Mux.inputPaths g m) (Mux.inputPaths g' m) := by
  unfold Mux.inputPaths
  rw [← h.node]
  cases hm : g.node m with
  | error e => exact .error e
  | ok n =>
      obtain ⟨hn, rfl⟩ := g.node_eq_ok_iff.1 hm
      by_cases hmux : n.isMux = true
      · rw [ok_bind, ok_bind, if_pos hmux, if_pos hmux]
        refine (h.back hn _ _).bind fun ps₁ ps₁' h₁ => (h.back hn _ _).bind fun ps₂ ps₂' h₂ =>
          (h.back hn _ _).bind fun ps₃ ps₃' h₃ => .ok ?_
        have hperm : ∀ x, ((InputPaths.mk ps₁ ps₂ ps₃).port x).Perm
            ((InputPaths.mk ps₁' ps₂' ps₃').port x) := by
          intro x
          cases x with
          | input1 => exact h₁
          | input2 => exact h₂
          | control => exact h₃
        exact ⟨hperm, fun x p _ => h.trim hperm x p⟩
      · rw [ok_bind, ok_bind, if_neg hmux, if_neg hmux]
        exact .error _

theorem recursions (h : g.SameParts g') (hcuts : InputPaths.SameCuts g g' paths paths')
    (x : MuxPort) (d : Descriptor) :
    d ∈ (Mux.found g paths x).recursions ↔ d ∈ (Mux.found g' paths' x).recursions := by
  have htrimmed : (Mux.trimmed g paths x).Perm (Mux.trimmed g' paths' x) := by
    rw [Mux.trimmed, List.map_congr_left (hcuts.trim x)]
    exact (hcuts.perm x).map _
  simp only [Mux.mem_recursions_iff, htrimmed.mem_iff, h.nearest?]

theorem continuations (h : g.SameParts g') (m : String) (o : Options) :
    EndAlike MuxContinuations.SameCalls (Mux.continuations g m o) (Mux.continuations g' m o) := by
  rw [Mux.continuations_eq, Mux.continuations_eq]
  cases o.validate with
  | error e => exact .error e
  | ok _ =>
      apply (h.inputPaths m).bind
      intro paths paths' hcuts
      apply EndAlike.ok
      intro d htype
      simp only [Mux.recursion_mem_merged_iff htype, h.recursions hcuts]

/-- Whatever the order of insertion: the paths behind a mux are the same, they are cut at
the same frames, and the same calls are found on them. -/
theorem cuts_and_calls (h : g.SameParts g') (m : String) (o : Options) :
    EndAlike (InputPaths.SameCuts g g') (Mux.inputPaths g m) (Mux.inputPaths g' m) ∧
      EndAlike MuxContinuations.SameCalls (Mux.continuations g m o) (Mux.continuations g' m o) :=
  ⟨h.inputPaths m, h.continuations m o⟩

end Graph.SameParts

namespace Tapped

/-- The tapped mux, put together from the end. -/
def reversed : Graph where
  nodes := graph.nodes.reverse
  edges := graph.edges.reverse
  id_ne_empty := by decide
  ids_nodup := by decide
  kind_eq_mux := by decide
  name_ne_empty := by decide
  names_nodup := by decide
  closed := by decide

theorem sameParts_reversed : graph.SameParts reversed where
  nodes := (List.reverse_perm _).symm
  edges := (List.reverse_perm _).symm

/-- What arrives at the second operand of the sum arrives there in another order. -/
theorem cuts_and_calls_reversed : graph.SameParts reversed ∧
    ∃ paths paths' mc mc',
      Mux.inputPaths graph "m" = .ok paths ∧ Mux.inputPaths reversed "m" = .ok paths' ∧
      paths.input1.map Path.nodes = [["c", "add", "m"], ["c", "add", "m"], ["v", "add", "m"]] ∧
      paths'.input1.map Path.nodes = [["c", "add", "m"], ["v", "add", "m"], ["c", "add", "m"]] ∧
      InputPaths.SameCuts graph reversed paths paths' ∧
      Mux.continuations graph "m" .default = .ok mc ∧
      Mux.continuations reversed "m" .default = .ok mc' ∧ mc.SameCalls mc' := by
  obtain ⟨paths, hpaths, hnodes⟩ : ∃ paths, Mux.inputPaths graph "m" = .ok paths ∧
      paths.input1.map Path.nodes = [["c", "add", "m"], ["c", "add", "m"], ["v", "add", "m"]] :=
    exists_ok_of_okAnd (by decide +kernel)
  obtain ⟨paths', hpaths', hnodes'⟩ : ∃ paths', Mux.inputPaths reversed "m" = .ok paths' ∧
      paths'.input1.map Path.nodes = [["c", "add", "m"], ["v", "add", "m"], ["c", "add", "m"]] :=
    exists_ok_of_okAnd (by decide +kernel)
  have hmc : ∀ {g paths}, Mux.inputPaths g "m" = .ok paths →
      Mux.continuations g "m" .default = .ok (Mux.merged g "m" .default paths) := by
    intro g paths hpaths
    rw [Mux.continuations_eq, hpaths]
    rfl
  obtain ⟨hcuts, hcalls⟩ := sameParts_reversed.cuts_and_calls "m" .default
  rw [hpaths, hpaths'] at hcuts
  rw [hmc hpaths, hmc hpaths'] at hcalls
  cases hcuts with
  | ok hcuts =>
      cases hcalls with
      | ok hcalls =>
          exact ⟨sameParts_reversed, paths, paths', _, _, hpaths, hpaths', hnodes, hnodes', hcuts,
            hmc hpaths, hmc hpaths', hcalls⟩

end Tapped

end MuxFlow
