import MuxFlow.Fault
import MuxFlow.Graph.Node
import MuxFlow.Graph.Edge

/-!
# Putting a graph together

A `Builder` holds nodes and edges in the order in which they were added. Node
ids are distinct and not empty; edges are known by name, and an edge that is
added under a name already in use takes the place of the earlier one. These are
facts about every builder, so they are fields of the type.
-/

namespace MuxFlow

/-- Nodes and edges on their way to a graph. -/
structure Builder where
  nodes : List Node
  edges : List Edge
  id_ne_empty : ∀ n ∈ nodes, n.id ≠ ""
  ids_nodup : (nodes.map Node.id).Nodup
  kind_eq_mux : ∀ n ∈ nodes, n.component = muxComponent → n.kind = .mux
  name_ne_empty : ∀ e ∈ edges, e.name ≠ ""
  names_nodup : (edges.map Edge.name).Nodup

/-- Puts an edge where the edge of its name stands, or at the end. -/
def Edge.place (edges : List Edge) (e : Edge) : List Edge :=
  if edges.any fun x => x.name = e.name then
    edges.map fun x => if x.name = e.name then e else x
  else edges ++ [e]

namespace Edge

theorem names_replace (edges : List Edge) (e : Edge) :
    (edges.map fun x => if x.name = e.name then e else x).map Edge.name =
      edges.map Edge.name := by
  rw [List.map_map]
  apply List.map_congr_left
  intro x _
  simp only [Function.comp]
  split
  · next h => exact h.symm
  · rfl

theorem mem_place {edges : List Edge} {e x : Edge} (h : x ∈ place edges e) :
    x = e ∨ x ∈ edges := by
  unfold place at h
  split at h
  · obtain ⟨y, hy, rfl⟩ := List.mem_map.1 h
    split
    · exact .inl rfl
    · exact .inr hy
  · rcases List.mem_append.1 h with h | h
    · exact .inr h
    · exact .inl (List.mem_singleton.1 h)

theorem names_place_nodup {edges : List Edge} (e : Edge)
    (h : (edges.map Edge.name).Nodup) : ((place edges e).map Edge.name).Nodup := by
  unfold place
  split
  · rwa [names_replace]
  · next hn =>
      rw [List.map_append, List.map_singleton, List.nodup_append]
      refine ⟨h, by simp, ?_⟩
      intro a ha b hb hab
      obtain ⟨x, hx, rfl⟩ := List.mem_map.1 ha
      rw [List.mem_singleton.1 hb] at hab
      exact hn (List.any_eq_true.2 ⟨x, hx, by simpa using hab⟩)

end Edge

namespace Builder

/-- A builder with nothing in it. -/
def empty : Builder where
  nodes := []
  edges := []
  id_ne_empty := by simp
  ids_nodup := by simp
  kind_eq_mux := by simp
  name_ne_empty := by simp
  names_nodup := by simp

/-- The trouble with a node that has no id. -/
def emptyId : Fault :=
  .trouble { phase := .build, kind := .invalidInput, detail := "node id is empty" }

/-- The trouble with an id that is already taken. -/
def duplicateId (phase : Phase) (id : String) : Fault :=
  .trouble { phase, kind := .duplicate, node := id, detail := "duplicate node id" }

/-- Whether some node has the id. -/
def hasNode (b : Builder) (id : String) : Bool := b.nodes.any fun n => n.id = id

theorem hasNode_iff (b : Builder) (id : String) :
    b.hasNode id = true ↔ id ∈ b.nodes.map Node.id := by
  simp [hasNode]

/-- Adds a node at the end. -/
def addNode (b : Builder) (n : Node) : Except Fault Builder :=
  if hid : n.id = "" then .error emptyId
  else if hdup : b.hasNode n.id then .error (duplicateId .build n.id)
  else .ok
    { nodes := b.nodes ++ [n.settled]
      edges := b.edges
      id_ne_empty := by
        intro m hm
        rcases List.mem_append.1 hm with hm | hm
        · exact b.id_ne_empty m hm
        · rw [List.mem_singleton.1 hm, Node.settled_id]; exact hid
      ids_nodup := by
        rw [List.map_append, List.map_singleton, List.nodup_append]
        refine ⟨b.ids_nodup, by simp, ?_⟩
        intro a ha c hc hac
        rw [List.mem_singleton.1 hc, Node.settled_id] at hac
        subst hac
        exact hdup ((hasNode_iff b _).2 ha)
      kind_eq_mux := by
        intro m hm
        rcases List.mem_append.1 hm with hm | hm
        · exact b.kind_eq_mux m hm
        · rw [List.mem_singleton.1 hm]; exact Node.settled_kind n
      name_ne_empty := b.name_ne_empty
      names_nodup := b.names_nodup }

/-- Adds an edge, in place of the edge of its name if there is one. -/
def addEdge (b : Builder) (e : Edge) : Builder where
  nodes := b.nodes
  edges := Edge.place b.edges e.named
  id_ne_empty := b.id_ne_empty
  ids_nodup := b.ids_nodup
  kind_eq_mux := b.kind_eq_mux
  name_ne_empty := by
    intro x hx
    rcases Edge.mem_place hx with rfl | hx
    · exact e.named_name_ne_empty
    · exact b.name_ne_empty x hx
  names_nodup := Edge.names_place_nodup _ b.names_nodup

/-- The ends of an edge that no node has, source first. -/
def danglingOf (b : Builder) (e : Edge) : List DanglingEnd :=
  ([e.source, e.target].filter fun id => !b.hasNode id).map fun id => ⟨e.name, id⟩

/-- All ends of edges that no node has, in edge order. -/
def danglingEnds (b : Builder) : List DanglingEnd := b.edges.flatMap b.danglingOf

end Builder

end MuxFlow
