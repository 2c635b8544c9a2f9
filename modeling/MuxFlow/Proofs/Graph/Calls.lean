import MuxFlow.Proofs.Graph.Assembly

/-!
# Builders after a run of calls

A builder is filled by calls that add a node or an edge, in any mixture. A node that is
refused leaves the builder as it is. `Builder.after` is the builder after a list of
calls. Its two lists are told by the calls alone: the nodes are the first ones of their
ids, settled (`Builder.after_nodes`), and for every name there is one edge, the last
one of that name, where the first one was added (`Builder.after_edges`).
-/

namespace MuxFlow

namespace Builder

inductive Call where
  | node (n : Node)
  | edge (e : Edge)
  deriving DecidableEq, Repr

/-- The builder after a call; a node that is refused changes nothing. -/
def apply (b : Builder) : Call → Builder
  | .node n =>
    match b.addNode n with
    | .ok b' => b'
    | .error _ => b
  | .edge e => b.addEdge e

def after (calls : List Call) : Builder := calls.foldl apply empty

theorem after_concat (calls : List Call) (c : Call) :
    after (calls ++ [c]) = (after calls).apply c := by
  simp [after]

/-- The nodes that calls ask to add. -/
def Call.nodes (calls : List Call) : List Node :=
  calls.filterMap fun
    | .node n => some n
    | .edge _ => none

/-- The edges that calls add, each with its name. -/
def Call.edges (calls : List Call) : List Edge :=
  calls.filterMap fun
    | .node _ => none
    | .edge e => some e.named

/-- The nodes that are not refused: those with an id that no earlier one has. -/
def Call.accepted (calls : List Call) : List Node :=
  (distinctBy Node.id ((Call.nodes calls).filter fun n => n.id ≠ "")).map Node.settled

/-- The edges that are not replaced: for every name, in the order of first use, the last
edge of that name. -/
def Call.standing (calls : List Call) : List Edge :=
  (distinct ((Call.edges calls).map Edge.name)).filterMap (Edge.latest? (Call.edges calls))

theorem apply_node (b : Builder) (n : Node) :
    (b.apply (.node n)).nodes =
        (if n.id ≠ "" ∧ n.id ∉ b.nodes.map Node.id then b.nodes ++ [n.settled] else b.nodes) ∧
      (b.apply (.node n)).edges = b.edges := by
  cases h : b.addNode n with
  | ok b' =>
      have hb : b.apply (.node n) = b' := by simp only [apply, h]
      obtain ⟨hfit, hnodes, hedges⟩ := addNode_eq_ok_iff.1 h
      rw [hb, if_pos hfit]
      exact ⟨hnodes, hedges⟩
  | error e =>
      have hb : b.apply (.node n) = b := by simp only [apply, h]
      have hunfit : ¬(n.id ≠ "" ∧ n.id ∉ b.nodes.map Node.id) := by
        rintro ⟨hid, hnew⟩
        rw [← hasNode_iff] at hnew
        rw [addNode, dif_neg hid, dif_neg hnew] at h
        cases h
      rw [hb, if_neg hunfit]
      exact ⟨rfl, rfl⟩

theorem apply_edge (b : Builder) (e : Edge) :
    (b.apply (.edge e)).nodes = b.nodes ∧
      (b.apply (.edge e)).edges = Edge.place b.edges e.named := ⟨rfl, rfl⟩

theorem after_nodes (calls : List Call) : (after calls).nodes = Call.accepted calls := by
  induction calls using List.reverseRecOn with
  | nil => rfl
  | append_singleton calls c ih =>
      rw [after_concat]
      cases c with
      | edge e =>
          rw [(apply_edge _ e).1, ih]
          simp [Call.accepted, Call.nodes]
      | node n =>
          rw [(apply_node _ n).1, ih]
          have hknown : n.id ∈ (Call.accepted calls).map Node.id ↔
              n.id ∈ ((Call.nodes calls).filter fun n => n.id ≠ "").map Node.id := by
            rw [← mem_keys_distinctBy Node.id ((Call.nodes calls).filter fun n => n.id ≠ "")]
            simp [Call.accepted]
          have hnodes : Call.nodes (calls ++ [.node n]) = Call.nodes calls ++ [n] := by
            simp [Call.nodes]
          by_cases hid : n.id = ""
          · simp [Call.accepted, hnodes, hid]
          · have hlast : [n].filter (fun n => n.id ≠ "") = [n] := by simp [hid]
            rw [Call.accepted, Call.accepted, hnodes, List.filter_append, hlast, distinctBy_concat]
            by_cases hold : n.id ∈ (Call.accepted calls).map Node.id
            · rw [if_neg fun h => h.2 hold, if_pos (hknown.1 hold)]
            · rw [if_pos ⟨hid, hold⟩, if_neg fun h => hold (hknown.2 h), List.map_append]
              rfl

theorem after_edges_eq_overlay (calls : List Call) :
    (after calls).edges = Edge.overlay [] (Call.edges calls) := by
  rw [← Edge.foldl_place]
  induction calls using List.reverseRecOn with
  | nil => rfl
  | append_singleton calls c ih =>
      rw [after_concat]
      cases c with
      | node n =>
          rw [(apply_node _ n).2, ih]
          simp [Call.edges]
      | edge e =>
          rw [(apply_edge _ e).2, ih]
          simp [Call.edges]

theorem after_edges (calls : List Call) : (after calls).edges = Call.standing calls := by
  rw [after_edges_eq_overlay]
  generalize hls : Call.edges calls = ls
  have hnew : Edge.newcomers [] ls = distinctBy Edge.name ls := by
    simp [Edge.newcomers]
  have hlatest : ∀ e ∈ distinctBy Edge.name ls,
      (Edge.latest? ls ∘ Edge.name) e = (some ∘ Edge.current ls) e := by
    intro e he
    exact Edge.latest?_of_mem (mem_of_mem_distinctBy Edge.name he)
  rw [Edge.overlay, List.map_nil, List.nil_append, hnew, Call.standing, hls, distinct_map,
    List.filterMap_map, List.filterMap_congr hlatest, List.filterMap_eq_map]

end Builder

end MuxFlow
