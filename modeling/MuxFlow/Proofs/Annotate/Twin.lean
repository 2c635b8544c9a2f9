import MuxFlow.Proofs.Annotate.Stages
import MuxFlow.Proofs.Continuation.Likeness

/-!
# Runs do not read what runs note down

A node without its notes is `Node.bare`: the mark, the continuation list and the
flag of a recursive body are taken off. Graphs are `Graph.Twin` when they have the
same bare nodes in the same order and the same edges that carry data, and when
flags, which walks do read, differ on outermost nodes only. Each stage that finds
something out finds the same in twins, so a run on one succeeds when a run on the
other does, with the same report (`Graph.Twin.annotate`).
-/

namespace MuxFlow

namespace Node

/-- A node without the notes of earlier runs. -/
def bare (n : Node) : Node :=
  { n with recursiveRoot := false, mark := none, continuations := [] }

@[simp] theorem bare_direction (n : Node) (port : String) :
    n.bare.direction port = n.direction port := rfl

end Node

namespace Graph

/-- Looking up a node and taking its notes off. -/
theorem map_bare_node? (g : Graph) (id : String) :
    (g.node? id).map Node.bare = (g.nodes.map Node.bare).find? fun n => n.id = id := by
  rw [List.find?_map]
  rfl

/-- Two graphs that differ in notes and links only, and in flags that no walk gets
to read. -/
structure Twin (g g' : Graph) : Prop where
  nodes : g.nodes.map Node.bare = g'.nodes.map Node.bare
  flags : ∀ n ∈ g.nodes, ∀ n' ∈ g'.nodes, n.id = n'.id →
    n.recursiveRoot = n'.recursiveRoot ∨ g.Outermost n
  dataEdges : g.dataEdges = g'.dataEdges

namespace Twin

variable {g g' : Graph}

theorem bare (h : g.Twin g') (id : String) :
    (g.node? id).map Node.bare = (g'.node? id).map Node.bare := by
  rw [map_bare_node?, map_bare_node?, h.nodes]

theorem bare_eq (h : g.Twin g') {n n' : Node} (hn : n ∈ g.nodes) (hn' : n' ∈ g'.nodes)
    (hid : n.id = n'.id) : n.bare = n'.bare := by
  have hbare := h.bare n.id
  rw [g.node?_eq_some_iff.2 ⟨hn, rfl⟩, g'.node?_eq_some_iff.2 ⟨hn', hid.symm⟩] at hbare
  exact Option.some.inj hbare

theorem symm (h : g.Twin g') : g'.Twin g where
  nodes := h.nodes.symm
  flags := by
    intro n' hn' n hn hid
    rcases h.flags n hn n' hn' hid.symm with hflag | houter
    · exact Or.inl hflag.symm
    · right
      intro e he
      rw [← n'.bare_direction, ← n'.bare_direction, ← h.bare_eq hn hn' hid.symm, hid]
      exact houter e (h.dataEdges ▸ he)
  dataEdges := h.dataEdges.symm

theorem alike (h : g.Twin g') : g.Alike g' where
  faces := by
    intro id
    have hface : ∀ g : Graph, (g.node? id).map Node.face =
        ((g.node? id).map Node.bare).map Node.face := by
      intro g
      rw [Option.map_map]
      rfl
    rw [hface g, hface g', h.bare]
  flags := h.flags
  dataEdges := h.dataEdges

theorem muxes (h : g.Twin g') : g.muxes = g'.muxes := by
  have hbare : ∀ g : Graph, g.muxes =
      ((g.nodes.map Node.bare).filter Node.isMux).map Node.id := by
    intro g
    rw [List.filter_map, List.map_map]
    rfl
  rw [hbare g, hbare g', h.nodes]

theorem analyse (h : g.Twin g') (s : Scheduling) (o : Options) :
    Annotate.analyse s g o = Annotate.analyse s g' o := by
  simp only [Annotate.analyse, Annotate.lists, Annotate.tasks, h.muxes, h.alike.continuations]

theorem bodies (h : g.Twin g') : Annotate.bodies g = Annotate.bodies g' := by
  funext d
  apply bind_node_congr Node.bare (h.bare d.node)
  intro n n' _ _ hbare
  have hid : n.id = n'.id := (congrArg Node.id hbare :)
  have hrec : n.recursive = n'.recursive := (congrArg Node.recursive hbare :)
  have hto : n.recursesTo = n'.recursesTo := (congrArg Node.recursesTo hbare :)
  simp only [h.alike.hasNode, hid, hrec, hto]

/-- A run on a twin succeeds as well, with the same report. -/
theorem annotate (h : g.Twin g') {s : Scheduling} {o : Options} {out : Graph} {r : Report}
    (hrun : MuxFlow.annotate s g o = .ok (out, r)) :
    ∃ out', MuxFlow.annotate s g' o = .ok (out', r) := by
  obtain ⟨hval, hmuxes, ⟨found, hfound, hroots⟩, hcount, _⟩ := annotate_eq_ok_iff.1 hrun
  rw [h.analyse] at hmuxes
  rw [h.bodies] at hfound
  obtain ⟨out', hout'⟩ :=
    Annotate.exists_rebuild_eq_ok r.roots (Annotate.reported_of_analyse hmuxes).links_closed
  exact ⟨out', annotate_eq_ok_iff.2 ⟨hval, hmuxes, ⟨found, hfound, hroots⟩, hcount, hout'⟩⟩

end Twin

end Graph

end MuxFlow
