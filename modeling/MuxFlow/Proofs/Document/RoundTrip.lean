import MuxFlow.Proofs.Document.Entries
import MuxFlow.Proofs.Graph.Assembly
import MuxFlow.Proofs.Json.RoundTrip

/-!
# Graphs are read back

Reading what was written for a graph gives the graph back, up to two things that a
document cannot say: a kind of its own for a node whose component is not the selector,
and a list of bodies that was never given. `Node.reread` is what becomes of a node.
It changes nothing the second time, so a graph that has been read back once is read
back as it is.
-/

namespace MuxFlow

namespace Node

/-- A node as it is read back. -/
def reread (n : Node) : Node :=
  { n with
    kind :=
      if n.kind ≠ .compound ∧ n.kind ≠ .atomic ∧ n.component ≠ muxComponent then .atomic
      else n.kind
    recursesTo := n.recursesTo.map RecursesTo.reread }

@[simp] theorem reread_id (n : Node) : n.reread.id = n.id := rfl

@[simp] theorem reread_component (n : Node) : n.reread.component = n.component := rfl

theorem reread_eq (n : Node) :
    n.reread = { n with
      kind := n.reread.kind, recursesTo := n.recursesTo.map RecursesTo.reread } := rfl

/-- The kind that the component and the written flag stand for. -/
theorem resolve_eq_reread_kind {n : Node} (h : n.component = muxComponent → n.kind = .mux) :
    Kind.resolve n.component (n.kind ≠ .compound) = n.reread.kind := by
  by_cases hc : n.component = muxComponent
  · simp [Kind.resolve, reread, hc, h hc]
  · cases hkind : n.kind <;> simp [Kind.resolve, reread, hc, hkind]

theorem reread_reread (n : Node) : n.reread.reread = n.reread := by
  have hto : (n.recursesTo.map RecursesTo.reread).map RecursesTo.reread =
      n.recursesTo.map RecursesTo.reread := by
    cases n.recursesTo <;> rfl
  by_cases h : n.kind ≠ .compound ∧ n.kind ≠ .atomic ∧ n.component ≠ muxComponent <;>
    simp [reread, hto, h]

/-- What a node has to be like for a document to say all of it. -/
theorem reread_eq_self_iff (n : Node) :
    n.reread = n ↔
      (n.kind = .compound ∨ n.kind = .atomic ∨ n.component = muxComponent) ∧
        n.recursesTo ≠ some ⟨none⟩ := by
  have hkind : n.reread.kind = n.kind ↔
      n.kind = .compound ∨ n.kind = .atomic ∨ n.component = muxComponent := by
    cases hk : n.kind <;> simp [reread, hk, eq_comm]
  have hto : n.recursesTo.map RecursesTo.reread = n.recursesTo ↔
      n.recursesTo ≠ some ⟨none⟩ := by
    cases n.recursesTo with
    | none => simp
    | some r =>
        obtain ⟨_ | ids⟩ := r <;> simp [RecursesTo.reread]
  rw [← hkind, ← hto]
  constructor
  · intro h
    exact ⟨congrArg Node.kind h, congrArg Node.recursesTo h⟩
  · rintro ⟨hk, ht⟩
    rw [reread_eq, hk, ht]

end Node

namespace Document

theorem NodeEntry.node_ofNode {n : Node} (h : n.component = muxComponent → n.kind = .mux) :
    (NodeEntry.ofNode n).node = .ok n.reread := by
  have hplain : (NodeEntry.ofNode n).plainNode =
      { n.reread with mark := none, continuations := [] } := by
    rw [n.reread_eq, ← Node.resolve_eq_reread_kind h]
    rfl
  have hparams : (NodeEntry.ofNode n).value.params =
      if n.mark.isSome || !n.continuations.isEmpty then some (.ofNode n) else none := rfl
  unfold node
  rw [hparams, hplain]
  by_cases hwritten : (n.mark.isSome || !n.continuations.isEmpty) = true
  · have hitems : (n.continuations.map DescriptorEntry.ofDescriptor).map
        DescriptorEntry.descriptor = n.continuations := by
      rw [List.map_map]
      exact List.map_id n.continuations
    simp only [hwritten, if_true, ParamsEntry.ofNode, mark?_getD, hitems]
    rfl
  · have hnone : n.mark = none ∧ n.continuations = [] := by simpa using hwritten
    rw [if_neg hwritten, n.reread_eq]
    simp [hnone]

end Document

namespace Graph

/-- A graph is what comes of adding its nodes and its edges. -/
theorem assemble (g : Graph) :
    (g.nodes.foldlM Builder.addNode Builder.empty >>= fun b =>
      (g.edges.foldl Builder.addEdge b).build) = .ok g := by
  have hnd : ((Builder.empty.nodes ++ g.nodes).map Node.id).Nodup := g.ids_nodup
  obtain ⟨b, hb, hnodes, hedges⟩ :=
    Builder.foldlM_addNode g.nodes Builder.empty g.id_ne_empty hnd
  rw [hb, ok_bind, Builder.build_eq_ok_iff]
  apply Builder.eq_of_parts
  · rw [Builder.foldl_addEdge_nodes, hnodes, Builder.map_settled fun n hn => g.settled_of_mem hn]
    rfl
  · rw [Builder.foldl_addEdge_edges _ _ g.name_ne_empty, hedges, Edge.foldl_place]
    exact (Edge.overlay_nil_of_nodup g.names_nodup).symm

/-- A graph as it is read back. -/
def reread (g : Graph) : Graph where
  nodes := g.nodes.map Node.reread
  edges := g.edges
  id_ne_empty := by simpa using g.id_ne_empty
  ids_nodup := by simpa [Function.comp_def] using g.ids_nodup
  kind_eq_mux := by
    intro n hn hc
    obtain ⟨m, hm, rfl⟩ := List.mem_map.1 hn
    have hmux := g.kind_eq_mux m hm hc
    have hcomponent : m.component = muxComponent := hc
    simp [Node.reread, hcomponent, hmux]
  name_ne_empty := g.name_ne_empty
  names_nodup := g.names_nodup
  closed := by
    intro e he
    simpa [Builder.hasNode_iff, Function.comp_def] using g.closed e he

theorem eq_of_parts {g g' : Graph} (hn : g.nodes = g'.nodes) (he : g.edges = g'.edges) :
    g = g' := by
  have hb := Builder.eq_of_parts hn he
  cases g
  cases g'
  cases hb
  rfl

theorem reread_reread (g : Graph) : g.reread.reread = g.reread := by
  apply eq_of_parts
  · change (g.nodes.map Node.reread).map Node.reread = g.nodes.map Node.reread
    simp [Node.reread_reread]
  · rfl

/-- Reading back changes nothing exactly when a document says all of every node. -/
theorem reread_eq_self_iff (g : Graph) :
    g.reread = g ↔ ∀ n ∈ g.nodes,
      (n.kind = .compound ∨ n.kind = .atomic ∨ n.component = muxComponent) ∧
        n.recursesTo ≠ some ⟨none⟩ := by
  simp only [← Node.reread_eq_self_iff]
  constructor
  · intro h n hn
    have hnodes : g.nodes.map Node.reread = g.nodes.map id := by
      rw [List.map_id]
      exact congrArg (fun g : Graph => g.nodes) h
    exact List.map_inj_left.1 hnodes n hn
  · intro h
    apply eq_of_parts
    · exact (List.map_congr_left h).trans (List.map_id g.nodes)
    · rfl

end Graph

namespace Document

theorem graph_ofNodes (g : Graph) :
    graph ⟨⟨g.nodes.map .ofNode, []⟩, ⟨g.edges.map .ofEdge, []⟩⟩ = .ok g.reread := by
  have hnodes : ∀ (ns : List Node) (b : Builder), (∀ n ∈ ns, n ∈ g.nodes) →
      (ns.map NodeEntry.ofNode).foldlM addEntry b =
        (ns.map Node.reread).foldlM Builder.addNode b := by
    intro ns b hns
    induction ns generalizing b with
    | nil => rfl
    | cons n ns ih =>
        have hn := NodeEntry.node_ofNode (g.kind_eq_mux n (hns n List.mem_cons_self))
        simp only [List.map_cons, List.foldlM_cons, addEntry, hn, ok_bind]
        congr 1
        funext b'
        exact ih b' fun m hm => hns m (List.mem_cons_of_mem n hm)
  have hedges : ∀ b : Builder, (g.edges.map EdgeEntry.ofEdge).foldl
      (fun b e => b.addEdge e.edge) b = g.edges.foldl Builder.addEdge b := by
    intro b
    rw [List.foldl_map]
    rfl
  unfold graph
  simp only [hnodes g.nodes Builder.empty fun n hn => hn, hedges]
  exact g.reread.assemble

end Document

open Json (Fits)

theorem fits_memberIf {n : Nat} {present : Bool} {name : String} {v : Json}
    (h : present = true → Fits n v) : ∀ m ∈ memberIf present name v, Fits n m.2 := by
  cases present with
  | false => simp [memberIf]
  | true => simpa [memberIf] using h

theorem fits_textMember {n : Nat} (name s : String) : ∀ m ∈ textMember name s, Fits n m.2 :=
  fits_memberIf fun _ => Fits.str s

theorem fits_flagMember {n : Nat} (name : String) (b : Bool) :
    ∀ m ∈ flagMember name b, Fits n m.2 :=
  fits_memberIf fun _ => Fits.bool true

theorem fits_textsJson {n : Nat} (texts : List String) : Fits (n + 1) (textsJson texts) :=
  Fits.arr (List.forall_mem_map.2 fun s _ => Fits.str s)

theorem Descriptor.fits_toJson {n : Nat} (d : Descriptor) : Fits (n + 2) d.toJson := by
  apply Fits.obj
  rw [List.forall_mem_cons, List.forall_mem_cons, List.forall_mem_append]
  exact ⟨Fits.str _, Fits.str _, fits_textMember _ _, fits_memberIf fun _ => fits_textsJson _⟩

theorem RecursesTo.fits_toJson {n : Nat} (r : RecursesTo) : Fits (n + 2) r.toJson := by
  apply Fits.obj
  rw [List.forall_mem_singleton]
  split
  · exact Fits.null
  · exact Fits.str _
  · exact fits_textsJson _

theorem Mark.fits_toJson {n : Nat} (m : Mark) : Fits (n + 2) m.toJson := by
  cases m with
  | body => exact Fits.bool true
  | descriptor d => exact d.fits_toJson

theorem fits_portsMember {n : Nat} (name : String) (ports : List Port) :
    ∀ m ∈ portsMember name ports, Fits (n + 1) m.2 :=
  fits_memberIf fun _ => Fits.obj (List.forall_mem_map.2 fun p _ => Fits.str p.type)

theorem fits_toList {α : Type} {n : Nat} (name : String) (o : Option α) {write : α → Json}
    (h : ∀ x, Fits n (write x)) : ∀ m ∈ (o.map fun x => (name, write x)).toList, Fits n m.2 := by
  cases o with
  | none => simp
  | some x => simpa using h x

namespace Node

theorem fits_paramsMember {n : Nat} (x : Node) : ∀ m ∈ x.paramsMember, Fits (n + 4) m.2 := by
  apply fits_memberIf
  intro _
  apply Fits.obj
  rw [List.forall_mem_append]
  exact ⟨fits_toList _ _ Mark.fits_toJson,
    fits_memberIf fun _ => Fits.arr (List.forall_mem_map.2 fun d _ => d.fits_toJson)⟩

theorem fits_toJson {n : Nat} (x : Node) : Fits (n + 6) x.toJson := by
  have hvalue : Fits (n + 5) x.valueJson := by
    apply Fits.obj
    simp only [List.forall_mem_cons, List.forall_mem_append]
    exact ⟨Fits.bool _, ⟨⟨⟨⟨⟨fits_toList _ _ RecursesTo.fits_toJson, x.fits_paramsMember⟩,
      fits_textMember _ _⟩, fits_portsMember _ _⟩, fits_portsMember _ _⟩, fits_flagMember _ _⟩,
      fits_flagMember _ _⟩
  apply Fits.obj
  rw [List.forall_mem_cons, List.forall_mem_append, List.forall_mem_singleton]
  exact ⟨Fits.str _, fits_textMember _ _, hvalue⟩

end Node

theorem Edge.fits_toJson {n : Nat} (e : Edge) : Fits (n + 2) e.toJson := by
  apply Fits.obj
  rw [List.forall_mem_cons, List.forall_mem_cons, List.forall_mem_append,
    List.forall_mem_singleton]
  refine ⟨Fits.str _, Fits.str _, fits_textMember _ _, Fits.obj ?_⟩
  simp only [List.forall_mem_append]
  exact ⟨⟨⟨fits_textMember _ _, fits_textMember _ _⟩, fits_flagMember _ _⟩, fits_flagMember _ _⟩

namespace Graph

/-- A document has at most eight containers inside one another and no numbers. -/
theorem fits_toJson (g : Graph) : Fits 8 g.toJson := by
  apply Fits.obj
  rw [List.forall_mem_cons, List.forall_mem_cons, List.forall_mem_singleton]
  refine ⟨Fits.obj ?_, Fits.arr ?_, Fits.arr ?_⟩
  · simpa using Fits.bool true
  · exact List.forall_mem_map.2 fun n _ => n.fits_toJson
  · exact List.forall_mem_map.2 fun e _ => e.fits_toJson

theorem ofJson_toJson (g : Graph) : ofJson g.toJson = .ok g.reread := by
  rw [ofJson, Document.ofJson?_toJson]
  exact Document.graph_ofNodes g

theorem readJson_of_readsAs {n : Nat} {text : List Char} {v : Json} (h : Json.ReadsAs n text v)
    (hn : n ≤ Json.maxDepth) (rest : List Char) :
    readJson (.ofString (String.ofList (text ++ rest))) = ofJson v := by
  rw [readJson, Text.Source.lossy_ofString, String.toList_ofList, ofJsonChars, h.read? hn]

theorem readJson_toJsonText (g : Graph) :
    readJson (.ofString g.toJsonText) = .ok g.reread := by
  have h := Json.readsAs_pretty escapedMembers.contains g.fits_toJson false 0
  rw [toJsonText, readJson_of_readsAs h (by decide), ofJson_toJson]

theorem readJson_toCompactText (g : Graph) :
    readJson (.ofString g.toCompactText) = .ok g.reread := by
  have h := readJson_of_readsAs (Json.readsAs_compact g.fits_toJson) (by decide) []
  rwa [List.append_nil, ofJson_toJson] at h

end Graph

/-- What is written for a graph, in either layout, is read back as a graph with the
same edges and the same nodes, up to what `Node.reread` says of a node; and what is
written for that graph is read back as it is. -/
theorem Graph.readJson_written (g : Graph) :
    ∃ out : Graph,
      (readJson (.ofString g.toJsonText) = .ok out ∧
        readJson (.ofString g.toCompactText) = .ok out) ∧
      out.nodes = g.nodes.map Node.reread ∧ out.edges = g.edges ∧
      (out = g ↔ ∀ n ∈ g.nodes,
        (n.kind = .compound ∨ n.kind = .atomic ∨ n.component = muxComponent) ∧
          n.recursesTo ≠ some ⟨none⟩) ∧
      readJson (.ofString out.toJsonText) = .ok out ∧
        readJson (.ofString out.toCompactText) = .ok out := by
  refine ⟨g.reread, ⟨g.readJson_toJsonText, g.readJson_toCompactText⟩, rfl, rfl,
    g.reread_eq_self_iff, ?_, ?_⟩
  · rw [readJson_toJsonText, reread_reread]
  · rw [readJson_toCompactText, reread_reread]

end MuxFlow
