import Mathlib.Logic.Function.Basic
import MuxFlow.Proofs.Graph.Calls

/-!
# Look-ups by tables

What a builder and a graph answer can be kept in tables instead of being searched for:
the position of every id and of every edge name, filled call by call, and, once the
graph is finished, the positions of the edges that arrive at a port, the nodes inside a
node, and the muxes. `Tables` and `Indexed` keep them the way a program would that
wants no searches: an edge that is replaced is overwritten at the position its name
has, and nothing is ever recomputed.

After any run of calls the tables say what the lists say (`Tables.describes_after`),
and so does every look-up in a finished graph. `Builder.build_coherent` puts together
what a run of calls ends with.
-/

namespace MuxFlow

open Builder (Call)

structure Tables where
  nodes : List Node
  edges : List Edge
  index : String → Option Nat
  edgeIndex : String → Option Nat

/-- Values under their keys, each list in the order in which the values came. -/
def collect {α κ β : Type} [DecidableEq κ] (key : α → κ) (value : α → β) (xs : List α) :
    κ → List β :=
  xs.foldl (fun table x => Function.update table (key x) (table (key x) ++ [value x])) fun _ => []

theorem collect_apply {α κ β : Type} [DecidableEq κ] (key : α → κ) (value : α → β)
    (xs : List α) (k : κ) :
    collect key value xs k = (xs.filter fun x => key x = k).map value := by
  unfold collect
  induction xs using List.reverseRecOn with
  | nil => rfl
  | append_singleton xs x ih =>
      rw [List.foldl_append, List.filter_append, List.map_append, ← ih]
      by_cases hk : key x = k
      · subst hk
        simp
      · simp [hk, Function.update_of_ne (Ne.symm hk)]

namespace Tables

def empty : Tables := ⟨[], [], fun _ => none, fun _ => none⟩

def addNode (t : Tables) (n : Node) : Except Fault Tables :=
  if n.id = "" then .error Builder.emptyId
  else if (t.index n.id).isSome then .error (Builder.duplicateId .build n.id)
  else .ok
    { t with
      nodes := t.nodes ++ [n.settled]
      index := Function.update t.index n.id (some t.nodes.length) }

/-- Adds an edge, or writes it over the one at the position of its name. -/
def addEdge (t : Tables) (e : Edge) : Tables :=
  match t.edgeIndex e.named.name with
  | some i => { t with edges := t.edges.set i e.named }
  | none =>
    { t with
      edges := t.edges ++ [e.named]
      edgeIndex := Function.update t.edgeIndex e.named.name (some t.edges.length) }

/-- The tables after a call; a node that is refused changes nothing. -/
def apply (t : Tables) : Call → Tables
  | .node n =>
    match t.addNode n with
    | .ok t' => t'
    | .error _ => t
  | .edge e => t.addEdge e

def after (calls : List Call) : Tables := calls.foldl apply empty

def danglingEnds (t : Tables) : List DanglingEnd :=
  t.edges.flatMap fun e =>
    ([e.source, e.target].filter fun id => (t.index id).isNone).map fun id => ⟨e.name, id⟩

end Tables

structure Indexed extends Tables where
  /-- The positions of the edges that arrive at a port. -/
  arrivals : String × String → List Nat
  /-- The ids of the nodes inside a node. -/
  inner : String → List String
  muxes : List String

/-- Finishes the tables; refuses edges that lead nowhere. -/
def Tables.build (t : Tables) : Except Fault Indexed :=
  match t.danglingEnds with
  | [] => .ok
      { t with
        arrivals := collect (fun e => (e.1.target, e.1.targetPort)) Prod.snd t.edges.zipIdx
        inner := collect Node.parent Node.id (t.nodes.filter fun n => n.parent ≠ "")
        muxes := (t.nodes.filter Node.isMux).map Node.id }
  | d :: ds => .error (.dangling (d :: ds))

namespace Indexed

variable (t : Indexed)

def node? (id : String) : Option Node := (t.index id).bind fun i => t.nodes[i]?

def parent (id : String) : String := ((t.node? id).map Node.parent).getD ""

def edge? (name : String) : Option Edge := (t.edgeIndex name).bind fun i => t.edges[i]?

def inEdges (node port : String) : List Edge :=
  (t.arrivals (node, port)).filterMap fun i => t.edges[i]?

end Indexed

/-- The tables hold the lists of a builder and know the positions in them. -/
structure Tables.Describes (t : Tables) (b : Builder) : Prop where
  nodes : t.nodes = b.nodes
  edges : t.edges = b.edges
  index : ∀ id, t.index id = b.nodes.findIdx? fun n => n.id = id
  edgeIndex : ∀ name, t.edgeIndex name = b.edges.findIdx? fun e => e.name = name

/-- Overwriting the edge at the position of its name puts an edge in the place of the
one with its name. -/
theorem Edge.replace_eq_set {edges : List Edge} {e : Edge} {i : Nat}
    (hnd : (edges.map Edge.name).Nodup) (hi : edges.findIdx? (fun x => x.name = e.name) = some i) :
    (edges.map fun x => if x.name = e.name then e else x) = edges.set i e := by
  induction edges generalizing i with
  | nil => cases hi
  | cons x edges ih =>
      rw [List.map_cons, List.nodup_cons] at hnd
      rw [List.findIdx?_cons] at hi
      by_cases hx : x.name = e.name
      · rw [if_pos (by simpa using hx)] at hi
        obtain rfl := Option.some.inj hi
        have hrest : ∀ y ∈ edges, (if y.name = e.name then e else y) = id y := by
          intro y hy
          apply if_neg
          intro hname
          exact hnd.1 (List.mem_map.2 ⟨y, hy, hname.trans hx.symm⟩)
        rw [List.map_cons, if_pos hx, List.map_congr_left hrest, List.map_id, List.set_cons_zero]
      · rw [if_neg (by simpa using hx), Option.map_eq_some_iff] at hi
        obtain ⟨j, hj, rfl⟩ := hi
        rw [List.map_cons, if_neg hx, ih hnd.2 hj, List.set_cons_succ]

namespace Tables.Describes

variable {t : Tables} {b : Builder}

theorem isSome_index (h : t.Describes b) (id : String) : (t.index id).isSome = b.hasNode id := by
  rw [h.index, List.findIdx?_isSome]
  rfl

theorem isSome_edgeIndex (h : t.Describes b) (name : String) :
    (t.edgeIndex name).isSome = b.edges.any fun e => e.name = name := by
  rw [h.edgeIndex, List.findIdx?_isSome]

theorem addNode (h : t.Describes b) (n : Node) :
    (∃ e, t.addNode n = .error e ∧ b.addNode n = .error e) ∨
      ∃ t' b', t.addNode n = .ok t' ∧ b.addNode n = .ok b' ∧ t'.Describes b' := by
  unfold Tables.addNode Builder.addNode
  rw [h.isSome_index]
  by_cases hid : n.id = ""
  · rw [if_pos hid, dif_pos hid]
    exact Or.inl ⟨_, rfl, rfl⟩
  by_cases hdup : b.hasNode n.id = true
  · rw [if_neg hid, dif_neg hid, if_pos hdup, dif_pos hdup]
    exact Or.inl ⟨_, rfl, rfl⟩
  · rw [if_neg hid, dif_neg hid, if_neg hdup, dif_neg hdup]
    refine Or.inr ⟨_, _, rfl, rfl, congrArg (· ++ [n.settled]) h.nodes, h.edges, ?_, h.edgeIndex⟩
    intro id
    change Function.update t.index n.id (some t.nodes.length) id =
      (b.nodes ++ [n.settled]).findIdx? fun m => m.id = id
    rw [List.findIdx?_append, h.nodes, ← h.index]
    by_cases hn : n.id = id
    · have hnone : t.index id = none := by
        rw [← Option.isNone_iff_eq_none, ← Option.not_isSome, h.isSome_index, ← hn]
        simpa using hdup
      subst hn
      simp [hnone]
    · simp [Function.update_of_ne (Ne.symm hn), hn]

theorem addEdge (h : t.Describes b) (e : Edge) : (t.addEdge e).Describes (b.addEdge e) := by
  have hplace : (b.addEdge e).edges = Edge.place b.edges e.named := rfl
  have hany := h.isSome_edgeIndex e.named.name
  unfold Tables.addEdge
  cases hi : t.edgeIndex e.named.name with
  | some i =>
      -- the names stay as they are, and with them their positions
      rw [hi, Option.isSome_some] at hany
      rw [h.edgeIndex] at hi
      rw [Edge.place, if_pos hany.symm] at hplace
      refine ⟨h.nodes, ?_, h.index, ?_⟩
      · rw [hplace, Edge.replace_eq_set b.names_nodup hi, h.edges]
      · intro name
        rw [hplace, List.findIdx?_map]
        refine (h.edgeIndex name).trans (congrArg (List.findIdx? · b.edges) ?_)
        funext x
        by_cases hx : x.name = e.named.name <;> simp [hx]
  | none =>
      rw [hi, Option.isSome_none] at hany
      rw [Edge.place, if_neg (by simp [← hany])] at hplace
      refine ⟨h.nodes, ?_, h.index, ?_⟩
      · rw [hplace, h.edges]
      · intro name
        rw [hplace, List.findIdx?_append, h.edges]
        by_cases hname : e.named.name = name
        · subst hname
          rw [← h.edgeIndex, hi]
          simp
        · rw [← h.edgeIndex]
          simp [Function.update_of_ne (Ne.symm hname), hname]

theorem apply (h : t.Describes b) (c : Call) : (t.apply c).Describes (b.apply c) := by
  cases c with
  | edge e => exact h.addEdge e
  | node n =>
      rcases h.addNode n with ⟨e, ht, hb⟩ | ⟨t', b', ht, hb, h'⟩
      · simpa only [Tables.apply, Builder.apply, ht, hb] using h
      · simpa only [Tables.apply, Builder.apply, ht, hb] using h'

end Tables.Describes

theorem Tables.describes_after (calls : List Call) :
    (Tables.after calls).Describes (Builder.after calls) := by
  induction calls using List.reverseRecOn with
  | nil => exact ⟨rfl, rfl, fun _ => rfl, fun _ => rfl⟩
  | append_singleton calls c ih =>
      rw [Builder.after_concat]
      simpa [Tables.after] using ih.apply c

/-- What is looked up in the tables of a finished graph is what the graph answers. -/
structure Indexed.Answers (t : Indexed) (g : Graph) : Prop where
  nodes : t.nodes = g.nodes
  edges : t.edges = g.edges
  node? : ∀ id, t.node? id = g.node? id
  hasNode : ∀ id, (t.index id).isSome = g.hasNode id
  index? : ∀ id, t.index id = g.index? id
  parent : ∀ id, t.parent id = g.parent id
  edge? : ∀ name, t.edge? name = g.edge? name
  inEdges : ∀ node port, t.inEdges node port = g.inEdges node port
  muxes : t.muxes = g.muxes
  children : ∀ id, t.inner id = g.children id

theorem Tables.Describes.danglingEnds {t : Tables} {b : Builder} (h : t.Describes b) :
    t.danglingEnds = b.danglingEnds := by
  have hnone : ∀ id, (t.index id).isNone = !b.hasNode id := by
    intro id
    rw [← Option.not_isSome, h.isSome_index]
  simp only [Tables.danglingEnds, h.edges, hnone]
  rfl

/-- The items at the positions of those that pass a test are the items that pass it. -/
theorem filterMap_positions {α : Type} (xs : List α) (p : α → Bool) :
    ((xs.zipIdx.filter fun x => p x.1).map Prod.snd).filterMap (fun i => xs[i]?) =
      xs.filter p := by
  have hat : ∀ x ∈ xs.zipIdx.filter fun x => p x.1,
      ((fun i => xs[i]?) ∘ Prod.snd) x = (some ∘ Prod.fst) x := by
    intro x hx
    exact List.mem_zipIdx_iff_getElem?.1 (List.mem_filter.1 hx).1
  have hfilter : (xs.zipIdx.filter (p ∘ Prod.fst)).map Prod.fst = xs.filter p := by
    rw [← List.filter_map, List.zipIdx_map_fst]
  rw [List.filterMap_map, List.filterMap_congr hat, List.filterMap_eq_map]
  exact hfilter

theorem Tables.Describes.build {t : Tables} {g : Graph} (h : t.Describes g.toBuilder) :
    ∃ t', t.build = .ok t' ∧ t'.Answers g := by
  have hnil : t.danglingEnds = [] :=
    h.danglingEnds.trans (g.toBuilder.danglingEnds_eq_nil_iff.2 g.closed)
  have hnode : ∀ id, ((t.index id).bind fun i => t.nodes[i]?) = g.node? id := by
    intro id
    rw [h.index, h.nodes]
    exact List.find?_eq_bind_findIdx?_getElem?.symm
  unfold Tables.build
  rw [hnil]
  refine ⟨_, rfl, h.nodes, h.edges, hnode, h.isSome_index, h.index, ?_, ?_, ?_, ?_, ?_⟩
  · intro id
    exact congrArg (fun n : Option Node => (n.map Node.parent).getD "") (hnode id)
  · intro name
    change ((t.edgeIndex name).bind fun i => t.edges[i]?) = g.edge? name
    rw [h.edgeIndex, h.edges]
    exact List.find?_eq_bind_findIdx?_getElem?.symm
  · intro node port
    change (collect _ _ t.edges.zipIdx (node, port)).filterMap (fun i => t.edges[i]?) = _
    simp only [collect_apply, h.edges, Prod.mk.injEq]
    exact filterMap_positions g.edges fun e => decide (e.target = node ∧ e.targetPort = port)
  · change (t.nodes.filter Node.isMux).map Node.id = g.muxes
    rw [h.nodes]
    rfl
  · intro id
    change collect Node.parent Node.id (t.nodes.filter fun n => n.parent ≠ "") id = g.children id
    rw [collect_apply, h.nodes, List.filter_filter, Graph.children]
    by_cases hid : id = ""
    · rw [if_pos hid, hid, List.map_eq_nil_iff, List.filter_eq_nil_iff]
      simp
    · rw [if_neg hid]
      congr 1
      apply List.filter_congr
      intro n _
      by_cases hn : n.parent = id <;> simp [hn, hid]

/-- Where no two items have the same key, a key has one position. -/
theorem findIdx?_eq_some_iff_of_nodup {α κ : Type} [DecidableEq κ] {key : α → κ} {xs : List α}
    (h : (xs.map key).Nodup) {k : κ} {i : Nat} :
    xs.findIdx? (fun y => key y = k) = some i ↔ (xs[i]?).map key = some k := by
  rw [← List.getElem?_map]
  constructor
  · intro hi
    obtain ⟨hlt, hkey, _⟩ := List.findIdx?_eq_some_iff_getElem.1 hi
    simpa [hlt] using hkey
  · intro hi
    obtain ⟨hlt, hkey⟩ := List.getElem?_eq_some_iff.1 hi
    apply List.findIdx?_eq_some_iff_getElem.2
    refine ⟨by simpa using hlt, by simpa using hkey, ?_⟩
    intro j hj
    rw [List.length_map] at hlt
    have hne := List.pairwise_iff_getElem.1 h j i (by simp; omega) (by simpa using hlt) hj
    rw [hkey, List.getElem_map] at hne
    simpa using hne

/-- Every look-up in a graph speaks of exactly its nodes and its edges. -/
structure Graph.Coherent (g : Graph) : Prop where
  node : ∀ id n, g.node id = .ok n ↔ n ∈ g.nodes ∧ n.id = id
  missing : ∀ id, g.node id = .error (nodeNotFound .walk id) ↔ ∀ n ∈ g.nodes, n.id ≠ id
  hasNode : ∀ id, g.hasNode id = true ↔ ∃ n ∈ g.nodes, n.id = id
  index : ∀ id i, g.index? id = some i ↔ (g.nodes[i]?).map Node.id = some id
  parent : ∀ n ∈ g.nodes, g.parent n.id = n.parent
  orphan : ∀ id, (∀ n ∈ g.nodes, n.id ≠ id) → g.parent id = ""
  edge : ∀ name e, g.edge? name = some e ↔ e ∈ g.edges ∧ e.name = name
  inEdges : ∀ node port, g.inEdges node port =
    g.edges.filter fun e => e.target = node ∧ e.targetPort = port
  arrives : ∀ e ∈ g.edges, ∀ node port,
    e ∈ g.inEdges node port ↔ (node, port) = (e.target, e.targetPort)
  muxes : g.muxes = (g.nodes.filter fun n => n.kind = .mux).map Node.id
  selector : ∀ n ∈ g.nodes, n.component = muxComponent → n.id ∈ g.muxes
  children : ∀ id, id ≠ "" →
    g.children id = (g.nodes.filter fun n => n.parent = id).map Node.id

theorem Graph.coherent (g : Graph) : g.Coherent where
  node id n := g.node_eq_ok_iff
  missing id := by
    unfold Graph.node
    cases hn : g.node? id with
    | none => simpa using List.find?_eq_none.1 hn
    | some n =>
        obtain ⟨hmem, hid⟩ := g.node?_eq_some_iff.1 hn
        simpa using ⟨n, hmem, hid⟩
  hasNode id := by simp [Builder.hasNode]
  index id i := findIdx?_eq_some_iff_of_nodup g.ids_nodup
  parent n hn := by rw [Graph.parent, g.node?_eq_some_iff.2 ⟨hn, rfl⟩]; rfl
  orphan id h := by
    have hnone : g.node? id = none := List.find?_eq_none.2 (by simpa using h)
    rw [Graph.parent, hnone]
    rfl
  edge name e := find?_eq_some_iff_of_nodup g.names_nodup
  inEdges node port := rfl
  arrives e he node port := by
    rw [Graph.inEdges, List.mem_filter, decide_eq_true_eq, Prod.mk.injEq, eq_comm, @eq_comm _ port]
    exact and_iff_right he
  muxes := rfl
  selector n hn hc := by
    have hkind := g.kind_eq_mux n hn hc
    exact (g.mem_muxes_of_mem hn).2 (by simp [Node.isMux, hkind])
  children id hid := if_neg hid

namespace Builder

/-- The graph that a run of calls ends with has the nodes that were not refused and the
edges that were not replaced, in order, and answers for exactly these; and tables that
are kept along the run answer for it. -/
theorem build_coherent {calls : List Call} {g : Graph} (h : (after calls).build = .ok g) :
    (g.nodes = Call.accepted calls ∧ (∀ n ∈ g.nodes, n.id ≠ "") ∧ (g.nodes.map Node.id).Nodup) ∧
      (g.edges = Call.standing calls ∧ (∀ e ∈ g.edges, e.name ≠ "") ∧
        (g.edges.map Edge.name).Nodup) ∧
      g.Coherent ∧ ∃ t, (Tables.after calls).build = .ok t ∧ t.Answers g := by
  have hb : g.toBuilder = after calls := (build_eq_ok_iff _ g).1 h
  refine ⟨⟨?_, g.id_ne_empty, g.ids_nodup⟩, ⟨?_, g.name_ne_empty, g.names_nodup⟩, g.coherent, ?_⟩
  · rw [hb, after_nodes]
  · rw [hb, after_edges]
  · have hdescribes := Tables.describes_after calls
    rw [← hb] at hdescribes
    exact hdescribes.build

/-- Calls that give a node no id, an id a second time, and an edge other ends. -/
def movedEdge : List Call :=
  [.node { id := "m", component := muxComponent, kind := .compound },
    .node { id := "" },
    .node { id := "m", parent := "c" },
    .node { id := "c", parent := "m" },
    .edge { source := "c", sourcePort := "o", target := "m", targetPort := "a", name := "e" },
    .edge { source := "c", sourcePort := "o", target := "m", targetPort := "b" },
    .edge { source := "m", sourcePort := "o", target := "c", targetPort := "i", name := "e" }]

theorem build_movedEdge :
    ∃ g, (after movedEdge).build = .ok g ∧ g.nodes.map Node.id = ["m", "c"] ∧
      g.edges.map Edge.name = ["e", "c@o→m@b"] ∧ g.Coherent ∧
      ∃ t, (Tables.after movedEdge).build = .ok t ∧ t.Answers g := by
  obtain ⟨g, hg⟩ := (after movedEdge).exists_build_eq_ok (by decide +kernel)
  obtain ⟨⟨hnodes, -, -⟩, ⟨hedges, -, -⟩, hcoherent, htables⟩ := build_coherent hg
  refine ⟨g, hg, ?_, ?_, hcoherent, htables⟩
  · rw [hnodes]
    decide +kernel
  · rw [hedges]
    decide +kernel

end Builder

end MuxFlow
