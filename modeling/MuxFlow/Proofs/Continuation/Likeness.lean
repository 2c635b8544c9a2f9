import MuxFlow.Proofs.Continuation.Findings

/-!
# Graphs that the analysis cannot tell apart

Of a node, the analysis of a mux reads the kind, the names of the ports and the
two recursion flags; of the edges, it reads those that carry data. `Node.face`
keeps what is read of a node except for the flag of a recursive body. That flag
says where a walk stops, and it says nothing of a body that is `Graph.Outermost`:
nothing is wired to its inputs or outputs from outside, so a walk ends there in any
case. Two graphs are `Graph.Alike` when the nodes of each id have the same face and
the same flag, or are outermost, and the edges that carry data are the same. Marks,
continuation lists, links, port types and the order of the nodes are left open,
and no stage of the analysis is influenced by them: on graphs that are alike the
walks, the cuts, the recursive calls and the nested muxes are the same, and so
are the continuations of every mux (`Graph.Alike.continuations`), faults
included.

The analysis of a mux sees what lies behind the mux and nothing else. So all this is
shown for a region that data enters from nowhere else: where two graphs are alike
within it (`Graph.AlikeWithin`), they are alike to the muxes of the region.
-/

namespace MuxFlow

/-- A port without its type. -/
def Port.bare (p : Port) : Port := { p with type := "" }

namespace Node

/-- What the analysis of a mux reads of a node, but for the flag of a recursive
body. -/
def face (n : Node) : Node :=
  { id := n.id, kind := n.kind, inputs := n.inputs.map Port.bare
    outputs := n.outputs.map Port.bare, recursive := n.recursive }

@[simp] theorem face_id (n : Node) : n.face.id = n.id := rfl

@[simp] theorem face_kind (n : Node) : n.face.kind = n.kind := rfl

@[simp] theorem face_recursive (n : Node) : n.face.recursive = n.recursive := rfl

@[simp] theorem face_inputNames (n : Node) : n.face.inputNames = n.inputNames := by
  simp [face, inputNames, Port.bare]

@[simp] theorem face_outputNames (n : Node) : n.face.outputNames = n.outputNames := by
  simp [face, outputNames, Port.bare]

@[simp] theorem face_direction (n : Node) (port : String) :
    n.face.direction port = n.direction port := by
  simp [direction]

@[simp] theorem face_isMux (n : Node) : n.face.isMux = n.isMux := rfl

theorem face_congr {n n' : Node} (hid : n.id = n'.id) (hkind : n.kind = n'.kind)
    (hin : n.inputNames = n'.inputNames) (hout : n.outputNames = n'.outputNames)
    (hrec : n.recursive = n'.recursive) : n.face = n'.face := by
  have hbare : ∀ ports : List Port,
      ports.map Port.bare = (ports.map Port.name).map fun name => ⟨name, ""⟩ := by
    intro ports
    rw [List.map_map]
    rfl
  unfold inputNames at hin
  unfold outputNames at hout
  unfold face
  rw [hbare n.inputs, hbare n.outputs, hbare n'.inputs, hbare n'.outputs, hid, hkind, hin, hout,
    hrec]

end Node

namespace Mux

/-- Walks go on in the same way from nodes with the same face and the same flag. -/
theorem follow_congr {n n' : Node} (hface : n.face = n'.face)
    (hflag : n.recursiveRoot = n'.recursiveRoot) (mux port : String) :
    follow mux n port = follow mux n' port := by
  have hread : ∀ n : Node, follow mux n port =
      follow mux { n.face with recursiveRoot := n.recursiveRoot } port := by
    intro n
    have hdir : Node.direction { n.face with recursiveRoot := n.recursiveRoot } port =
        n.direction port := n.face_direction port
    have hin : Node.inputNames { n.face with recursiveRoot := n.recursiveRoot } =
        n.inputNames := n.face_inputNames
    have hout : Node.outputNames { n.face with recursiveRoot := n.recursiveRoot } =
        n.outputNames := n.face_outputNames
    unfold follow
    rw [hdir, hin, hout]
    rfl
  rw [hread n, hread n', hface, hflag]

/-- A walk that has entered a node at an input goes on there or not at all. -/
theorem follow_subset_of_input {n : Node} {port : String} (h : n.direction port = .input)
    (mux : String) : ∀ p ∈ follow mux n port, p = port := by
  intro p hp
  unfold follow at hp
  rw [if_pos h] at hp
  by_cases hroot : n.recursiveRoot = true
  · rw [if_pos hroot] at hp
    cases hp
  · rw [if_neg hroot] at hp
    exact List.mem_singleton.1 hp

/-- Where a node has not been entered at an input or from behind, its flag is not
looked at; that of a mux is looked at for inputs only. -/
theorem follow_of_inside {n : Node} {port : String} (hin : n.direction port ≠ .input)
    (hout : n.direction port = .output → n.isMux = true) (mux : String) :
    follow mux n port = if n.isMux ∧ n.id ≠ mux then [] else n.inputNames := by
  have hthrough : ¬(n.kind = .compound ∧ n.direction port = .output ∧ ¬n.recursive ∧
      ¬n.recursiveRoot) := by
    rintro ⟨hkind, hside, _⟩
    have hmux := hout hside
    rw [Node.isMux, hkind] at hmux
    cases hmux
  unfold follow
  rw [if_neg hin, if_neg hthrough]

end Mux

namespace Graph

/-- The edges that carry data, in order. -/
def dataEdges (g : Graph) : List Edge := g.edges.filter fun e => !e.continuation

/-- No edge that carries data comes to an input of a node or goes out from an
output of it. -/
def Outermost (g : Graph) (n : Node) : Prop :=
  ∀ e ∈ g.dataEdges, (e.target = n.id → n.direction e.targetPort ≠ .input) ∧
    (e.source = n.id → n.direction e.sourcePort ≠ .output)

instance (g : Graph) (n : Node) : Decidable (g.Outermost n) :=
  inferInstanceAs (Decidable (∀ e ∈ g.dataEdges, _))

/-- Two graphs with the same faces and the same edges that carry data, where flags
differ on outermost nodes only. -/
structure Alike (g g' : Graph) : Prop where
  faces : ∀ id, (g.node? id).map Node.face = (g'.node? id).map Node.face
  flags : ∀ n ∈ g.nodes, ∀ n' ∈ g'.nodes, n.id = n'.id →
    n.recursiveRoot = n'.recursiveRoot ∨ g.Outermost n
  dataEdges : g.dataEdges = g'.dataEdges

/-- Two graphs that are alike at the nodes of a region, where no edge that carries data
comes into the region from outside. -/
structure AlikeWithin (S : String → Prop) (g g' : Graph) : Prop where
  faces : ∀ id, S id → (g.node? id).map Node.face = (g'.node? id).map Node.face
  flags : ∀ n ∈ g.nodes, S n.id → ∀ n' ∈ g'.nodes, n.id = n'.id →
    n.recursiveRoot = n'.recursiveRoot ∨ g.Outermost n
  dataEdges : ∀ id, S id →
    (g.dataEdges.filter fun e => e.target = id) = g'.dataEdges.filter fun e => e.target = id
  closed : ∀ e ∈ g.dataEdges, S e.target → S e.source

/-- Graphs that are alike are alike everywhere. -/
theorem Alike.within {g g' : Graph} (h : g.Alike g') : g.AlikeWithin (fun _ => True) g' where
  faces id _ := h.faces id
  flags n hn _ := h.flags n hn
  dataEdges id _ := by rw [h.dataEdges]
  closed _ _ _ := trivial

/-- Nothing arrives at an outermost node that is entered at an input. -/
theorem Outermost.arrivals_eq_nil {g : Graph} {n : Node} (h : g.Outermost n) {port : String}
    (hport : n.direction port = .input) {ports : List String} (hports : ∀ p ∈ ports, p = port) :
    Walk.arrivals g n.id ports = [] := by
  apply List.eq_nil_iff_forall_not_mem.2
  intro e he
  obtain ⟨hmem, hdata, htarget, hp⟩ := Walk.mem_arrivals.1 he
  have hedge : e ∈ g.dataEdges := List.mem_filter.2 ⟨hmem, by simp [hdata]⟩
  apply (h e hedge).1 htarget
  rw [hports _ hp]
  exact hport

namespace AlikeWithin

variable {S : String → Prop} {g g' : Graph}

theorem bind_node {β : Type} (h : g.AlikeWithin S g') {id : String} (hid : S id)
    {k k' : Node → Except Fault β} (hk : ∀ n n', n.face = n'.face → k n = k' n') :
    (g.node id >>= k) = (g'.node id >>= k') :=
  bind_node_congr Node.face (h.faces id hid) fun n n' _ _ hface => hk n n' hface

theorem hasNode (h : g.AlikeWithin S g') {id : String} (hid : S id) :
    g.hasNode id = g'.hasNode id := by
  have hsome := congrArg Option.isSome (h.faces id hid)
  rwa [Option.isSome_map, Option.isSome_map, g.isSome_node?, g'.isSome_node?] at hsome

theorem arrivals (h : g.AlikeWithin S g') {node : String} (hnode : S node)
    (ports : List String) : Walk.arrivals g node ports = Walk.arrivals g' node ports := by
  have hdata : ∀ (g : Graph) (p : String),
      ((g.inEdges node p).filter fun e => !e.continuation) =
        (g.dataEdges.filter fun e => e.target = node).filter fun e => e.targetPort = p := by
    intro g p
    rw [inEdges, Graph.dataEdges, List.filter_filter, List.filter_filter, List.filter_filter]
    apply List.filter_congr
    intro e _
    cases e.continuation <;> simp [Bool.and_comm]
  unfold Walk.arrivals
  simp only [hdata, h.dataEdges node hnode]

/-- The step of a walk, at a node where a walk can be: the mux it started from, or a
node that an edge comes from. -/
theorem arrivals_follow (h : g.AlikeWithin S g') (mux : String) {port : String} {n n' : Node}
    (hn : n ∈ g.nodes) (hS : S n.id) (hn' : n' ∈ g'.nodes) (hface : n.face = n'.face)
    (hat : n.isMux = true ∨ (n.id, port) ∈ Walk.origins g) :
    Walk.arrivals g n.id (Mux.follow mux n port) =
      Walk.arrivals g n.id (Mux.follow mux n' port) := by
  have hdir : n.direction port = n'.direction port := by
    rw [← n.face_direction, ← n'.face_direction, hface]
  have hid : n.id = n'.id := by rw [← n.face_id, ← n'.face_id, hface]
  have hmux : n.isMux = n'.isMux := by rw [← n.face_isMux, ← n'.face_isMux, hface]
  rcases h.flags n hn hS n' hn' hid with hflag | houter
  · rw [Mux.follow_congr hface hflag]
  by_cases hin : n.direction port = .input
  · rw [houter.arrivals_eq_nil hin (Mux.follow_subset_of_input hin mux),
      houter.arrivals_eq_nil hin (Mux.follow_subset_of_input (hdir ▸ hin) mux)]
  · have hout : n.direction port = .output → n.isMux = true := by
      intro hside
      rcases hat with hat | hat
      · exact hat
      · obtain ⟨e, he, horigin⟩ := List.mem_map.1 hat
        obtain ⟨hsource, rfl⟩ := Prod.mk.inj horigin
        exact absurd hside ((houter e he).2 hsource)
    have hnames : n.inputNames = n'.inputNames := by
      rw [← n.face_inputNames, ← n'.face_inputNames, hface]
    rw [Mux.follow_of_inside hin hout, Mux.follow_of_inside (hdir ▸ hin) (hdir ▸ hmux ▸ hout),
      hmux, hid, hnames]

theorem extensions (h : g.AlikeWithin S g') {mux : String} (hmux : mux ∈ g.muxes) {f : Frame}
    {p : Path} (hS : S f.node) (hf : f.node = mux ∨ f.place ∈ Walk.origins g) :
    Walk.extensions g (Mux.rule mux) (f :: p) = Walk.extensions g' (Mux.rule mux) (f :: p) := by
  apply bind_node_congr Node.face (h.faces f.node hS)
  intro n n' hn hn' hface
  obtain ⟨hmem, hid⟩ := g.node?_eq_some_iff.1 hn
  have hat : n.isMux = true ∨ (n.id, f.port) ∈ Walk.origins g := by
    rcases hf with hf | hf
    · exact Or.inl ((g.mem_muxes_of_mem hmem).1 (by rw [hid, hf]; exact hmux))
    · exact Or.inr (by rw [hid]; exact hf)
  have hstep :=
    h.arrivals_follow mux hmem (hid ▸ hS) (g'.node?_eq_some_iff.1 hn').1 hface hat
  rw [hid] at hstep
  simp only [ok_bind, Walk.nextFrames]
  rw [hstep, h.arrivals hS]

theorem back (h : g.AlikeWithin S g') {mux : String} (hmux : mux ∈ g.muxes) (hS : S mux)
    (port : String) :
    Walk.back g mux port (Mux.rule mux) = Walk.back g' mux port (Mux.rule mux) := by
  apply h.bind_node hS
  intro n n' hface
  rw [← n.face_direction, ← n'.face_direction, hface]
  -- a path on the work list stands in the region, at the mux or where an edge comes from
  rw [Walk.drain_congr (P := fun p => ∃ f q, p = f :: q ∧ S f.node ∧
    (f.node = mux ∨ f.place ∈ Walk.origins g))]
  · rintro p qs ⟨f, q, rfl, hf, _⟩ hqs r hr
    obtain ⟨_, hterminal, e, he, _, rfl⟩ := (Walk.mem_extensions_iff hqs).1 hr
    obtain rfl := Option.some.inj hterminal
    have hedge : e ∈ g.dataEdges := List.mem_filter.2 ⟨he.mem, by simp [he.data]⟩
    exact ⟨e.frame, _, rfl, h.closed e hedge (he.target ▸ hf),
      Or.inr (List.mem_map_of_mem hedge)⟩
  · rintro _ ⟨f, p, rfl, hf, hat⟩
    exact h.extensions hmux hf hat
  · intro p hp
    exact ⟨_, _, List.mem_singleton.1 hp, hS, Or.inl rfl⟩

theorem inputPaths (h : g.AlikeWithin S g') {mux : String} (hS : S mux) :
    Mux.inputPaths g mux = Mux.inputPaths g' mux := by
  apply bind_node_congr Node.face (h.faces mux hS)
  intro n n' hn _ hface
  have hkind : n.kind = n'.kind := by rw [← n.face_kind, ← n'.face_kind, hface]
  have hmux : n.isMux = n'.isMux := by rw [← n.face_isMux, ← n'.face_isMux, hface]
  by_cases hn_mux : n.isMux = true
  · have hmem : mux ∈ g.muxes := by
      obtain ⟨hmem, rfl⟩ := g.node?_eq_some_iff.1 hn
      exact (g.mem_muxes_of_mem hmem).2 hn_mux
    simp only [h.back hmem hS, hmux, hkind]
  · rw [if_neg hn_mux, if_neg (hmux ▸ hn_mux), hkind]

theorem firstRecursive (h : g.AlikeWithin S g') {fs : List Frame} (hfs : ∀ f ∈ fs, S f.node) :
    Recursion.firstRecursive g fs = Recursion.firstRecursive g' fs := by
  induction fs with
  | nil => rfl
  | cons f fs ih =>
      obtain ⟨hf, hfs⟩ := List.forall_mem_cons.1 hfs
      apply h.bind_node hf
      intro n n' hface
      rw [← n.face_recursive, ← n'.face_recursive, hface, ih hfs]

theorem firstOnPaths (h : g.AlikeWithin S g') (mux : String) {ps : List Path}
    (hps : ∀ p ∈ ps, ∀ f ∈ p, S f.node) :
    Recursion.firstOnPaths g mux ps = Recursion.firstOnPaths g' mux ps := by
  unfold Recursion.firstOnPaths
  congr 1
  apply mapM_congr
  intro p hp
  have houtward : ∀ f ∈ p.outward, S f.node := by
    intro f hf
    exact hps p hp f (List.mem_reverse.1 hf)
  unfold Recursion.firstOnPath
  rw [h.firstRecursive houtward]

theorem nestedStarts (h : g.AlikeWithin S g') (port : String) {ps : List Path}
    (hps : ∀ p ∈ ps, ∀ f ∈ p, S f.node) :
    Mux.nestedStarts g port ps = Mux.nestedStarts g' port ps := by
  unfold Mux.nestedStarts
  congr 1
  apply mapM_congr
  intro f hf
  obtain ⟨p, hp, hterminal⟩ := List.mem_filterMap.1 (List.mem_filter.1 hf).1
  apply h.bind_node (hps p hp f (List.mem_of_mem_head? hterminal))
  intro n n' hface
  rw [← n.face_isMux, ← n'.face_isMux, hface]

theorem findings (h : g.AlikeWithin S g') (mux : String) {paths : InputPaths} {x : MuxPort}
    (hpaths : ∀ p ∈ paths.port x, ∀ f ∈ p, S f.node) :
    Mux.findings g mux paths x = Mux.findings g' mux paths x := by
  have htrim : Mux.trimmed g paths x = Mux.trimmed g' paths x := by
    apply List.map_congr_left
    intro p hp
    exact Divergence.trim_congr _ fun f hf => h.hasNode (hpaths p hp f hf)
  have htrimmed : ∀ p ∈ Mux.trimmed g' paths x, ∀ f ∈ p, S f.node := by
    intro p hp f hf
    obtain ⟨q, hq, hsuffix, _⟩ := Mux.exists_of_mem_trimmed hp
    exact hpaths q hq f (hsuffix.subset hf)
  simp only [Mux.findings, htrim, h.firstOnPaths mux htrimmed, h.nestedStarts x.name hpaths]

/-- The continuations of a mux in the region are the same in both graphs. -/
theorem continuations (h : g.AlikeWithin S g') {mux : String} (hS : S mux) (o : Options) :
    Mux.continuations g mux o = Mux.continuations g' mux o := by
  unfold Mux.continuations
  rw [← h.inputPaths hS]
  congr 1
  funext _
  apply bind_congr_of_ok
  intro paths hpaths
  congr 1
  apply mapM_congr
  intro x _
  apply h.findings
  intro p hp f hf
  refine (Mux.forall_frame hpaths hS ?_ hp f hf).1
  intro e he hdata
  exact h.closed e (List.mem_filter.2 ⟨he, by simp [hdata]⟩)

end AlikeWithin

namespace Alike

variable {g g' : Graph}

theorem hasNode (h : g.Alike g') (id : String) : g.hasNode id = g'.hasNode id :=
  h.within.hasNode trivial

theorem inputPaths (h : g.Alike g') (mux : String) :
    Mux.inputPaths g mux = Mux.inputPaths g' mux :=
  h.within.inputPaths trivial

/-- The continuations of a mux are the same in graphs that are alike. -/
theorem continuations (h : g.Alike g') (mux : String) (o : Options) :
    Mux.continuations g mux o = Mux.continuations g' mux o :=
  h.within.continuations trivial o

end Alike

end Graph

end MuxFlow
