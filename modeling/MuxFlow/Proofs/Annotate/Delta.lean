import MuxFlow.Proofs.Annotate.Stages

/-!
# What an annotation run changes

The annotated copy of a graph differs from the graph in three fields of its nodes
and in links, and in nothing else. `Annotate.Written` says this of one node and
`Annotate.Delta` of the whole graph: which node is marked as what, when a root
mark, an earlier mark and a continuation meet on one node, and where a link goes
whose name an edge already has. `Annotate.Exhaustive` says that no mux was passed
over. `annotate_delta` is the statement about every run: the first holds whatever the
scheduling, and the second when the run does not depend on it.
-/

namespace MuxFlow

/-- The edges that a report speaks of: for each continuation one from its mux to its
node, between no ports. -/
def Report.additions (r : Report) : List Edge :=
  r.muxes.flatMap fun mc => mc.continuations.map fun d =>
    { source := mc.mux, sourcePort := "", target := d.node, targetPort := ""
      name := mc.mux ++ "→→" ++ d.node ++ "@" ++ d.port
      continuation := true, control := d.port = "control" }

namespace Annotate

/-- How the copy `n'` of a node `n` comes out of a run with report `r`. -/
structure Written (r : Report) (n n' : Node) : Prop where
  rest : n' =
    { n with
      recursiveRoot := n'.recursiveRoot, mark := n'.mark, continuations := n'.continuations }
  root : n'.recursiveRoot = (n.recursiveRoot || decide (n.id ∈ r.roots))
  mark : n'.mark =
    if n.id ∈ r.roots then some .body
    else
      match r.targets.find? fun d => d.node = n.id with
      | some d => some (.descriptor d)
      | none => n.mark
  list : ∀ mc ∈ r.muxes, mc.mux = n.id → n'.continuations = mc.continuations
  kept : (∀ mc ∈ r.muxes, mc.mux ≠ n.id) → n'.continuations = n.continuations

/-- How a graph, its annotated copy and the report of the run belong together. -/
structure Delta (g : Graph) (o : Options) (out : Graph) (r : Report) : Prop where
  ids : out.nodes.map Node.id = g.nodes.map Node.id
  nodes : List.Forall₂ (Written r) g.nodes out.nodes
  /-- What is reported are lists of muxes, as the analysis of the mux gives them. -/
  reported : ∀ mc ∈ r.muxes, mc.mux ∈ g.muxes ∧ Mux.continuations g mc.mux o = .ok mc ∧
    mc.continuations ≠ []
  /-- The roots are the bodies that targets enter, as they first appear. -/
  roots : r.roots = distinct (r.targets.flatMap (entered g))
  /-- Edges stay in their places; the last addition of a name takes the place of the
  edge of that name, and additions with new names follow. -/
  edges : out.edges =
    g.edges.map (Edge.current r.additions) ++
      (Edge.newcomers g.edges r.additions).map (Edge.current r.additions)
  count : r.edges = r.targets.length

/-- The list that the copy `n'` of a node `n` has when no mux is passed over. -/
structure Listed (g : Graph) (o : Options) (n n' : Node) : Prop where
  list : n.isMux → ∃ mc, Mux.continuations g n.id o = .ok mc ∧
    n'.continuations = if mc.continuations = [] then n.continuations else mc.continuations
  kept : ¬n.isMux → n'.continuations = n.continuations

/-- No mux is passed over. -/
structure Exhaustive (g : Graph) (o : Options) (out : Graph) (r : Report) : Prop where
  nodes : List.Forall₂ (Listed g o) g.nodes out.nodes
  /-- The report lists, in node order, the muxes for which something was found. -/
  muxes : ∃ all, List.Forall₂ (fun m mc => Mux.continuations g m o = .ok mc) g.muxes all ∧
    r.muxes = all.filter fun mc => mc.continuations ≠ []

theorem Reported.written_mark {g : Graph} {o : Options} {r : Report}
    (h : Reported g o r.muxes) (n : Node) : Written r n (Annotate.mark r.muxes r.roots n) := by
  rw [mark_eq]
  constructor
  · rfl
  · rfl
  · rfl
  · exact fun mc hmc hid => h.listed_eq hmc hid
  · exact listed_of_forall_ne

theorem Complete.listed_mark {g : Graph} {o : Options} {r : Report} (h : Complete g o r.muxes)
    {n : Node} (hn : n ∈ g.nodes) : Listed g o n (Annotate.mark r.muxes r.roots n) := by
  rw [mark_eq]
  constructor
  · intro hmux
    have hid : n.id ∈ g.muxes := (g.mem_muxes_of_mem hn).2 hmux
    have ⟨all, hall, _⟩ := h
    obtain ⟨mc, hmc⟩ := exists_mapM_eq_ok_iff.1 ⟨all, mapM_eq_ok_iff.2 hall⟩ n.id hid
    exact ⟨mc, hmc, h.listed_eq hid hmc⟩
  · intro hmux
    apply listed_of_forall_ne
    rintro mc hmc hid
    exact hmux ((g.mem_muxes_of_mem hn).1 (hid ▸ (h.reported mc hmc).1))

theorem flatten_bodies {g : Graph} {ds : List Descriptor} {found : List (List String)}
    (h : ds.mapM (bodies g) = .ok found) : found.flatten = ds.flatMap (entered g) := by
  have hrel := mapM_eq_ok_iff.1 h
  induction hrel with
  | nil => rfl
  | cons hd hds ih =>
      rw [List.flatten_cons, List.flatMap_cons, (bodies_eq_ok_iff.1 hd).1,
        ih (mapM_eq_ok_iff.2 hds)]

theorem length_links (muxes : List MuxContinuations) :
    (links muxes).length = (muxes.flatMap MuxContinuations.continuations).length := by
  simp [links, List.length_flatMap]

theorem links_eq_additions (r : Report) : links r.muxes = r.additions := rfl

end Annotate

/-- A call behind a mux that enters the mux and itself, and a nested mux, with notes
of an earlier run here and there and an edge that has the name of a link. -/
def tangled : Graph where
  nodes :=
    [{ Node.selector "m" with continuations := [{ node := "x", port := "input1" }] },
      Node.call "c" ["m", "c"],
      { Node.selector "k" with
        mark := some .body, continuations := [{ node := "x", port := "input2" }] }]
  edges :=
    [{ Edge.wire "c" "o" "m" "input1" with name := "m→→c@input1" },
      Edge.wire "k" "o" "m" "input2"]
  id_ne_empty := by decide
  ids_nodup := by decide
  kind_eq_mux := by decide
  name_ne_empty := by decide
  names_nodup := by decide
  closed := by decide

end MuxFlow
