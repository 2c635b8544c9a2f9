import MuxFlow.Graph.Basic
import MuxFlow.Proofs.Except
import MuxFlow.Proofs.Graph.Placement

/-!
# Graphs put together from their parts

A builder is its list of nodes and its list of edges, and a graph is a builder
whose edges lead somewhere; the other fields are facts about the two lists. So it
can be told by its parts (`Builder.eq_of_parts`), and what a run of `addNode` and
`addEdge` ends with is said by saying its two lists: nodes that are fit to be added
are added with their kind settled, edges are placed as `Edge.overlay` says, and `build`
answers with the graph that has these lists.
-/

namespace MuxFlow

namespace Builder

theorem eq_of_parts {b b' : Builder} (hn : b.nodes = b'.nodes) (he : b.edges = b'.edges) :
    b = b' := by
  cases b
  cases b'
  cases hn
  cases he
  rfl

/-- A node is added at the end, with its kind settled, when its id is new. -/
theorem addNode_eq_ok_iff {b b' : Builder} {n : Node} :
    b.addNode n = .ok b' ↔
      (n.id ≠ "" ∧ n.id ∉ b.nodes.map Node.id) ∧
        b'.nodes = b.nodes ++ [n.settled] ∧ b'.edges = b.edges := by
  unfold addNode
  rw [← hasNode_iff]
  split
  · next hid => simp [hid]
  split
  · next hdup => simp [hdup]
  · next hid hdup =>
      rw [Except.ok.injEq]
      constructor
      · rintro rfl
        exact ⟨⟨hid, hdup⟩, rfl, rfl⟩
      · rintro ⟨_, hnodes, hedges⟩
        exact eq_of_parts hnodes.symm hedges.symm

/-- A node with a new id is added, with its kind settled. -/
theorem addNode_of_fresh (b : Builder) {n : Node} (hid : n.id ≠ "")
    (hnew : n.id ∉ b.nodes.map Node.id) :
    ∃ b', b.addNode n = .ok b' ∧ b'.nodes = b.nodes ++ [n.settled] ∧ b'.edges = b.edges := by
  have hdup : ¬b.hasNode n.id = true := fun h => hnew ((hasNode_iff b n.id).1 h)
  unfold addNode
  rw [dif_neg hid, dif_neg hdup]
  exact ⟨_, rfl, rfl, rfl⟩

/-- Nodes with new ids are added one after another. -/
theorem foldlM_addNode (ns : List Node) (b : Builder) (hid : ∀ n ∈ ns, n.id ≠ "")
    (hnew : ((b.nodes ++ ns).map Node.id).Nodup) :
    ∃ b', ns.foldlM addNode b = .ok b' ∧ b'.nodes = b.nodes ++ ns.map Node.settled ∧
      b'.edges = b.edges := by
  induction ns generalizing b with
  | nil => exact ⟨b, rfl, by simp, rfl⟩
  | cons n ns ih =>
      have hn : n.id ∉ b.nodes.map Node.id := by
        rw [List.map_append, List.nodup_append] at hnew
        exact fun hmem => hnew.2.2 _ hmem _ (by simp) rfl
      obtain ⟨b₁, hb₁, hnodes, hedges⟩ := b.addNode_of_fresh (hid n List.mem_cons_self) hn
      have hnew₁ : ((b₁.nodes ++ ns).map Node.id).Nodup := by
        rw [hnodes]
        simpa using hnew
      obtain ⟨b₂, hb₂, hnodes₂, hedges₂⟩ :=
        ih b₁ (fun m hm => hid m (List.mem_cons_of_mem n hm)) hnew₁
      refine ⟨b₂, ?_, ?_, hedges₂.trans hedges⟩
      · rw [List.foldlM_cons, hb₁]
        exact hb₂
      · rw [hnodes₂, hnodes, List.append_assoc]
        rfl

theorem map_settled {ns : List Node} (h : ∀ n ∈ ns, n.settled = n) :
    ns.map Node.settled = ns := by
  rw [List.map_congr_left h]
  exact List.map_id' ns

@[simp] theorem foldl_addEdge_nodes (ls : List Edge) (b : Builder) :
    (ls.foldl addEdge b).nodes = b.nodes := by
  induction ls generalizing b with
  | nil => rfl
  | cons e ls ih => rw [List.foldl_cons, ih]; rfl

/-- Edges that have names are placed one after another. -/
theorem foldl_addEdge_edges (ls : List Edge) (b : Builder) (h : ∀ e ∈ ls, e.name ≠ "") :
    (ls.foldl addEdge b).edges = ls.foldl Edge.place b.edges := by
  induction ls generalizing b with
  | nil => rfl
  | cons e ls ih =>
      rw [List.foldl_cons, List.foldl_cons, ih _ fun x hx => h x (List.mem_cons_of_mem e hx)]
      have hedges : (b.addEdge e).edges = Edge.place b.edges e.named := rfl
      rw [hedges, Edge.named_of_ne_empty (h e List.mem_cons_self)]

theorem danglingEnds_eq_nil_iff (b : Builder) :
    b.danglingEnds = [] ↔ ∀ e ∈ b.edges, b.hasNode e.source ∧ b.hasNode e.target := by
  constructor
  · exact b.closed_of_danglingEnds
  · intro h
    apply List.flatMap_eq_nil_iff.2
    intro e he
    simp [danglingOf, h e he]

/-- Building gives the graph with the parts of the builder, when there is one. -/
theorem build_eq_ok_iff (b : Builder) (g : Graph) : b.build = .ok g ↔ g.toBuilder = b := by
  unfold build
  constructor
  · intro h
    split at h
    · exact (Except.ok.inj h) ▸ rfl
    · cases h
  · rintro rfl
    have hnil := g.toBuilder.danglingEnds_eq_nil_iff.2 g.closed
    split
    · rfl
    · next h => rw [hnil] at h; cases h

/-- There is one when both ends of every edge are nodes. -/
theorem exists_build_eq_ok (b : Builder)
    (h : ∀ e ∈ b.edges, b.hasNode e.source ∧ b.hasNode e.target) : ∃ g, b.build = .ok g :=
  ⟨{ b with closed := h }, (b.build_eq_ok_iff _).2 rfl⟩

end Builder

/-- Where no two items have the same key, the one that is found is the one there is. -/
theorem find?_eq_some_iff_of_nodup {α κ : Type} [DecidableEq κ] {key : α → κ} {xs : List α}
    (h : (xs.map key).Nodup) {k : κ} {x : α} :
    xs.find? (fun y => key y = k) = some x ↔ x ∈ xs ∧ key x = k := by
  constructor
  · intro hx
    exact ⟨List.mem_of_find?_eq_some hx, by simpa using List.find?_some hx⟩
  · rintro ⟨hx, rfl⟩
    cases hf : xs.find? fun y => key y = key x with
    | none =>
        have hne := List.find?_eq_none.1 hf x hx
        simp at hne
    | some y =>
        have hy : key y = key x := by simpa using List.find?_some hf
        rw [List.inj_on_of_nodup_map h (List.mem_of_find?_eq_some hf) hx hy]

namespace Graph

variable (g : Graph)

theorem node?_eq_some_iff {id : String} {n : Node} :
    g.node? id = some n ↔ n ∈ g.nodes ∧ n.id = id :=
  find?_eq_some_iff_of_nodup g.ids_nodup

theorem node_eq_ok_iff {id : String} {n : Node} :
    g.node id = .ok n ↔ n ∈ g.nodes ∧ n.id = id := by
  rw [← node?_eq_some_iff]
  unfold node
  cases g.node? id <;> simp

/-- What is done with the node of an id is the same in two graphs when it is the
same for nodes that agree on what the graphs agree on. -/
theorem bind_node_congr {γ β : Type} {g g' : Graph} {id : String} (view : Node → γ)
    (h : (g.node? id).map view = (g'.node? id).map view) {k k' : Node → Except Fault β}
    (hk : ∀ n n', g.node? id = some n → g'.node? id = some n' → view n = view n' → k n = k' n') :
    (g.node id >>= k) = (g'.node id >>= k') := by
  unfold node
  cases hn : g.node? id with
  | none =>
      rw [hn, Option.map_none, eq_comm, Option.map_eq_none_iff] at h
      rw [h]
      rfl
  | some n =>
      rw [hn, Option.map_some, eq_comm, Option.map_eq_some_iff] at h
      obtain ⟨n', hn', hview⟩ := h
      rw [hn']
      exact hk n n' hn hn' hview.symm

theorem edges_nodup : g.edges.Nodup := List.Nodup.of_map _ g.names_nodup

theorem hasNode_of_mem {n : Node} (h : n ∈ g.nodes) : g.hasNode n.id = true :=
  (Builder.hasNode_iff _ _).2 (List.mem_map_of_mem h)

theorem isSome_node? (id : String) : (g.node? id).isSome = g.hasNode id := by
  rw [Bool.eq_iff_iff, node?, List.find?_isSome]
  exact List.any_eq_true.symm

theorem exists_node_of_hasNode {id : String} (h : g.hasNode id = true) :
    ∃ n ∈ g.nodes, n.id = id :=
  List.mem_map.1 ((Builder.hasNode_iff _ _).1 h)

theorem mem_muxes_iff {id : String} :
    id ∈ g.muxes ↔ ∃ n ∈ g.nodes, n.isMux = true ∧ n.id = id := by
  simp [muxes, and_assoc]

/-- A node of a graph is a mux exactly when its id is listed as one. -/
theorem mem_muxes_of_mem {n : Node} (h : n ∈ g.nodes) :
    n.id ∈ g.muxes ↔ n.isMux = true := by
  rw [g.mem_muxes_iff]
  constructor
  · rintro ⟨m, hm, hmux, hid⟩
    rwa [← List.inj_on_of_nodup_map g.ids_nodup hm h hid]
  · intro hmux
    exact ⟨n, h, hmux, rfl⟩

/-- The kind of a node of a graph is settled. -/
theorem settled_of_mem {n : Node} (h : n ∈ g.nodes) : n.settled = n := by
  unfold Node.settled
  split
  · next hc =>
      have hk := g.kind_eq_mux n h hc
      cases n
      cases hk
      rfl
  · rfl

end Graph

end MuxFlow
